import FaultSnapshot.Proofs.Views

/-!
# Memories that are equal on a thread

Two memories are equal on a thread, up to the numbers of their cells, if its frames are the same in
both: the same owners, methods and names, and in paired cells the same contents. The calls of the
thread keep them equal (`Memory.EqOn.openFrame`, `Memory.EqOn.closeFrame`, `Memory.EqOn.track`), and
so does what other threads do to one of them, for they neither write a cell of the thread nor come to
have one (`Memory.Spares`).
-/

namespace FaultSnapshot

variable {Code : Type}

namespace Memory

variable {m m' m'' : Memory Code} {key : TrackerId × Thread} {thread : Thread} {frame : Frame Code}
variable {rest : List (Frame Code)}

/-! ## What one call does -/

/-- The memory was changed by a call on `key`: other stacks stay, and only cells that are open there
    are written. -/
structure Works (key : TrackerId × Thread) (m m' : Memory Code) : Prop where
  others : ∀ other ≠ key, m'.stack other = m.stack other
  opened : ∀ cell ∈ m'.openCells key, cell ∈ m.openCells key ∨ m.cells.size ≤ cell
  cells : ∀ cell < m.cells.size, cell ∉ m.openCells key → m'.cells[cell]? = m.cells[cell]?
  size : m.cells.size ≤ m'.cells.size
  records : m'.records = m.records

theorem Works.refl (key : TrackerId × Thread) (m : Memory Code) : Works key m m :=
  ⟨fun _ _ => rfl, fun _ member => .inl member, fun _ _ _ => rfl, Nat.le_refl _, rfl⟩

theorem Works.restack {s : CallStack (Frame Code)}
    (opened : ∀ f ∈ s.toList, f.vars.entries = [] ∨ f ∈ (m.stack key).toList) : Works key m (m.setStack key s) := by
  refine ⟨fun other ne => stack_setStack_of_ne ne, ?_, fun _ _ _ => rfl, Nat.le_refl _, rfl⟩
  intro cell member
  rw [openCells, stack_setStack, List.mem_flatMap] at member
  obtain ⟨f, inside, shows⟩ := member
  rcases opened f inside with none | known
  · rw [none] at shows
    exact absurd shows List.not_mem_nil
  · exact .inl (List.mem_flatMap.mpr ⟨f, known, shows⟩)

theorem openFrame_eq (sound : m.Sound key) (owner : Option (Object Code)) (method : String) :
    ∃ s, m.openFrame key owner method = (.ok (), m.setStack key s) ∧
      s.toList = .opened owner method :: (m.stack key).toList := by
  obtain ⟨s, pushed, toList, _⟩ := CallStack.push_toList sound.arena (.opened owner method)
  exact ⟨s, by simp only [openFrame, pushed], toList⟩

theorem closeFrame_cons (sound : m.Sound key) (frames : (m.stack key).toList = frame :: rest) :
    ∃ s, m.closeFrame key = (.ok (), m.setStack key s) ∧ s.toList = rest := by
  obtain ⟨s, popped, toList, _⟩ := CallStack.pop_toList sound.arena frames .cleared
  exact ⟨s, by simp only [closeFrame, popped], toList⟩

theorem closeFrame_nil (sound : m.Sound key) (none : (m.stack key).toList = []) :
    m.closeFrame key = (.error .scopeUnderflow, m) := by
  rw [closeFrame, CallStack.pop_nil none sound.arena]
  rfl

theorem top_cons (sound : m.Sound key) (frames : (m.stack key).toList = frame :: rest) :
    (m.stack key).top? = some frame := by
  rw [CallStack.top?_eq sound.arena, frames]
  rfl

theorem track_none (sound : m.Sound key) (none : (m.stack key).toList = []) {name : String} (named : name ≠ "")
    (value : Object Code) : m.track key name value = (.error (.noFrameFor name), m) := by
  have top : (m.stack key).top? = .none := by
    rw [CallStack.top?_eq sound.arena, none]
    rfl
  simp only [track, if_neg named, top]

/-- A variable that the innermost frame has is written in its cell. -/
theorem track_known (sound : m.Sound key) (frames : (m.stack key).toList = frame :: rest) {name : String}
    (named : name ≠ "") {cell : CellId} (found : frame.vars.get? name = some cell) (value : Object Code) :
    m.track key name value = (.ok (), m.write cell value) := by
  simp only [track, if_neg named, top_cons sound frames, found]

/-- A variable that the innermost frame does not have is given the next cell. -/
theorem track_unknown (sound : m.Sound key) (frames : (m.stack key).toList = frame :: rest) {name : String}
    (named : name ≠ "") (found : frame.vars.get? name = none) (value : Object Code) :
    ∃ s, m.track key name value = (.ok (), (m.newCell name value).2.setStack key s) ∧
      s.toList = { frame with vars := frame.vars.insert name m.cells.size } :: rest := by
  obtain ⟨toList, _⟩ := CallStack.setTop_toList sound.arena frames
    { frame with vars := frame.vars.insert name m.cells.size }
  refine ⟨_, ?_, toList⟩
  simp only [track, if_neg named, top_cons sound frames, found]
  rfl

theorem Works.openFrame (sound : m.Sound key) (owner : Option (Object Code)) (method : String) :
    Works key m (m.openFrame key owner method).2 := by
  obtain ⟨s, opens, toList⟩ := openFrame_eq sound owner method
  rw [opens]
  refine .restack ?_
  intro f inside
  rw [toList, List.mem_cons] at inside
  rcases inside with rfl | inside
  · exact .inl rfl
  · exact .inr inside

theorem Works.closeFrame (sound : m.Sound key) : Works key m (m.closeFrame key).2 := by
  cases frames : (m.stack key).toList with
  | nil =>
    rw [closeFrame_nil sound frames]
    exact .refl key m
  | cons frame rest =>
    obtain ⟨s, closes, toList⟩ := closeFrame_cons sound frames
    rw [closes]
    refine .restack ?_
    intro f inside
    rw [toList] at inside
    rw [frames]
    exact .inr (List.mem_cons_of_mem _ inside)

theorem Works.track (sound : m.Sound key) (name : String) (value : Object Code) :
    Works key m (m.track key name value).2 := by
  by_cases named : name = ""
  · rw [Memory.track, if_pos named]
    exact .refl key m
  · cases frames : (m.stack key).toList with
    | nil =>
      rw [track_none sound frames named]
      exact .refl key m
    | cons frame rest =>
      have inside := openCells_cons frames
      cases found : frame.vars.get? name with
      | some cell =>
        rw [track_known sound frames named found]
        refine ⟨fun _ _ => rfl, fun _ member => .inl member, ?_, by simp [write], rfl⟩
        intro other _ apart
        have ne : cell ≠ other := by
          rintro rfl
          apply apart
          rw [inside]
          exact List.mem_append_left _ (List.mem_map_of_mem (f := Prod.snd) (OrderedMap.find_mem found))
        simp [write, Array.getElem?_modify, ne]
      | none =>
        obtain ⟨s, tracks, toList⟩ := track_unknown sound frames named found value
        rw [tracks]
        refine ⟨fun other ne => stack_setStack_of_ne ne, ?_, ?_, by simp [newCell, setStack], rfl⟩
        · intro cell member
          rw [openCells, stack_setStack, toList, List.flatMap_cons] at member
          have entries : (frame.vars.insert name m.cells.size).entries = frame.vars.entries ++ [(name, m.cells.size)] :=
            OrderedMap.write_new (OrderedMap.find_none found)
          rw [entries, List.map_append, List.append_assoc, List.mem_append, List.mem_append] at member
          rw [inside, List.mem_append]
          rcases member with own | new | below
          · exact .inl (.inl own)
          · exact .inr (Nat.le_of_eq (List.mem_singleton.mp new).symm)
          · exact .inl (.inr below)
        · intro cell valid _
          simp [newCell, setStack, Array.getElem?_push, Nat.ne_of_lt valid]

/-! ## What others do -/

/-- The cell belongs to an open frame of another thread. -/
def Elsewhere (thread : Thread) (m : Memory Code) (cell : CellId) : Prop :=
  ∃ key : TrackerId × Thread, key.2 ≠ thread ∧ cell ∈ m.openCells key

/-- Other threads have changed the memory: the stacks of the thread stay, and so does each cell that
    belongs to no open frame of another thread. These take none of such cells for themselves. -/
structure Spares (thread : Thread) (m m' : Memory Code) : Prop where
  unmoved : ∀ tracker, m'.stack (tracker, thread) = m.stack (tracker, thread)
  cells : ∀ cell < m.cells.size, ¬ m.Elsewhere thread cell → m'.cells[cell]? = m.cells[cell]?
  claims : ∀ cell, m'.Elsewhere thread cell → m.Elsewhere thread cell ∨ m.cells.size ≤ cell
  size : m.cells.size ≤ m'.cells.size
  records : m'.records = m.records

theorem Spares.refl (thread : Thread) (m : Memory Code) : m.Spares thread m :=
  ⟨fun _ => rfl, fun _ _ _ => rfl, fun _ there => .inl there, Nat.le_refl _, rfl⟩

theorem Spares.trans (first : m.Spares thread m') (later : m'.Spares thread m'') : m.Spares thread m'' where
  unmoved tracker := (later.unmoved tracker).trans (first.unmoved tracker)
  cells cell valid here := by
    have here' : ¬ m'.Elsewhere thread cell := by
      intro there
      rcases first.claims cell there with there | new
      · exact here there
      · omega
    exact (later.cells cell (Nat.lt_of_lt_of_le valid first.size) here').trans (first.cells cell valid here)
  claims cell there := by
    rcases later.claims cell there with there | new
    · exact first.claims cell there
    · exact .inr (Nat.le_trans first.size new)
  size := Nat.le_trans first.size later.size
  records := later.records.trans first.records

/-- A call of another thread spares the thread. -/
theorem Works.spares (works : Works key m m') (ne : key.2 ≠ thread) : m.Spares thread m' where
  unmoved tracker := works.others _ fun same => ne (congrArg Prod.snd same).symm
  cells cell valid here := works.cells cell valid fun opened => here ⟨key, ne, opened⟩
  claims cell there := by
    obtain ⟨other, apart, opened⟩ := there
    by_cases same : other = key
    · subst same
      rcases works.opened cell opened with known | new
      · exact .inl ⟨other, ne, known⟩
      · exact .inr new
    · rw [openCells, works.others other same] at opened
      exact .inl ⟨other, apart, opened⟩
  size := works.size
  records := works.records

/-! ## Equality up to the numbers of cells -/

/-- The cells are paired by their places in `cells`: the second is the place of the first. -/
def Paired (cells : List CellId) (e e' : String × CellId) : Prop := e.1 = e'.1 ∧ cells[e'.2]? = some e.2

end Memory

/-- Frames with the same owner, method and names, and with paired cells. -/
structure Frame.EqUpToCells (cells : List CellId) (f f' : Frame Code) : Prop where
  owner : f.owner = f'.owner
  method : f.method = f'.method
  vars : List.Forall₂ (Memory.Paired cells) f.vars.entries f'.vars.entries

namespace Memory

variable {m m' m'' : Memory Code} {key : TrackerId × Thread} {thread : Thread} {cells : List CellId}

/-- The thread has the same frames in both memories. All cells of the second were made by the thread,
    and `cells` are, in their order, those of the first that it made. -/
structure EqOn (thread : Thread) (cells : List CellId) (m m' : Memory Code) : Prop where
  frames : ∀ tracker,
    List.Forall₂ (Frame.EqUpToCells cells) (m.stack (tracker, thread)).toList (m'.stack (tracker, thread)).toList
  sound : ∀ tracker, m.Sound (tracker, thread)
  sound' : ∀ tracker, m'.Sound (tracker, thread)
  made : m'.cells.size = cells.length
  nodup : cells.Nodup
  own : ∀ cell ∈ cells, cell < m.cells.size ∧ ¬ m.Elsewhere thread cell
  contents : ∀ (i : Nat) (cell : CellId), cells[i]? = some cell → m.cells[cell]? = m'.cells[i]?
  records : m.records = m'.records

theorem getElem?_of_prefix {α : Type} {xs ys : List α} {i : Nat} {x : α} (shorter : xs <+: ys)
    (here : xs[i]? = some x) : ys[i]? = some x := by
  obtain ⟨inside, rfl⟩ := List.getElem?_eq_some_iff.mp here
  exact List.prefix_iff_getElem?.mp shorter i inside

theorem Paired.mono {more : List CellId} {e e' : String × CellId} (shorter : cells <+: more)
    (paired : Paired cells e e') : Paired more e e' :=
  ⟨paired.1, getElem?_of_prefix shorter paired.2⟩

theorem eqUpToCells_mono {more : List CellId} {f f' : Frame Code} (shorter : cells <+: more)
    (equal : Frame.EqUpToCells cells f f') : Frame.EqUpToCells more f f' :=
  ⟨equal.owner, equal.method, equal.vars.imp fun _ _ paired => paired.mono shorter⟩

/-- Names that are paired are found in both lists or in none. -/
theorem find_paired {es es' : List (String × CellId)} (paired : List.Forall₂ (Paired cells) es es') (name : String) :
    (OrderedMap.find name es = none ∧ OrderedMap.find name es' = none) ∨
      ∃ cell i, OrderedMap.find name es = some cell ∧ OrderedMap.find name es' = some i ∧ cells[i]? = some cell := by
  induction paired with
  | nil => exact .inl ⟨rfl, rfl⟩
  | @cons e e' es es' first _ ih =>
    obtain ⟨same, place⟩ := first
    unfold OrderedMap.find
    by_cases here : e.1 = name
    · rw [if_pos here, if_pos (same.symm.trans here)]
      exact .inr ⟨e.2, e'.2, rfl, rfl, place⟩
    · rw [if_neg here, if_neg fun there => here (same.trans there)]
      exact ih

theorem Works.elsewhere (works : Works key m m') (on : key.2 = thread) (cell : CellId) :
    m'.Elsewhere thread cell ↔ m.Elsewhere thread cell := by
  have same : ∀ other : TrackerId × Thread, other.2 ≠ thread → m'.openCells other = m.openCells other := by
    intro other apart
    rw [openCells, works.others other fun same => apart (same ▸ on), openCells]
  constructor
  · rintro ⟨other, apart, opened⟩
    exact ⟨other, apart, same other apart ▸ opened⟩
  · rintro ⟨other, apart, opened⟩
    exact ⟨other, apart, same other apart ▸ opened⟩

namespace EqOn

/-- What others do to the first memory does not matter. -/
theorem later (equal : EqOn thread cells m m') (spares : m.Spares thread m'') : EqOn thread cells m'' m' where
  frames tracker := by
    rw [spares.unmoved tracker]
    exact equal.frames tracker
  sound tracker := (equal.sound tracker).congr (spares.unmoved tracker) spares.size
  sound' := equal.sound'
  made := equal.made
  nodup := equal.nodup
  own cell member := by
    obtain ⟨valid, here⟩ := equal.own cell member
    refine ⟨Nat.lt_of_lt_of_le valid spares.size, ?_⟩
    intro there
    rcases spares.claims cell there with there | new
    · exact here there
    · exact absurd new (Nat.not_le_of_lt valid)
  contents i cell place := by
    obtain ⟨valid, here⟩ := equal.own cell (List.mem_of_getElem? place)
    rw [spares.cells cell valid here]
    exact equal.contents i cell place
  records := spares.records.trans equal.records

section
variable {tracker : TrackerId} {m₂ m₂' : Memory Code} {cell i : CellId} {name : String} {value : Object Code}

/-- Both memories were changed by a call of the thread on the tracker. -/
theorem changed {more : List CellId} (equal : EqOn thread cells m m') (works : Works (tracker, thread) m m₂)
    (works' : Works (tracker, thread) m' m₂') (sound : m₂.Sound (tracker, thread))
    (sound' : m₂'.Sound (tracker, thread)) (shorter : cells <+: more)
    (frames : List.Forall₂ (Frame.EqUpToCells more) (m₂.stack (tracker, thread)).toList
      (m₂'.stack (tracker, thread)).toList)
    (made : m₂'.cells.size = more.length) (nodup : more.Nodup)
    (own : ∀ cell ∈ more, cell < m₂.cells.size ∧ ¬ m.Elsewhere thread cell)
    (contents : ∀ (i : Nat) (cell : CellId), more[i]? = some cell → m₂.cells[cell]? = m₂'.cells[i]?) :
    EqOn thread more m₂ m₂' where
  frames other := by
    by_cases same : other = tracker
    · exact same ▸ frames
    · have ne : (other, thread) ≠ (tracker, thread) := fun eq => same (congrArg Prod.fst eq)
      rw [works.others _ ne, works'.others _ ne]
      exact (equal.frames other).imp fun _ _ equal => eqUpToCells_mono shorter equal
  sound other := by
    by_cases same : other = tracker
    · exact same ▸ sound
    · have ne : (other, thread) ≠ (tracker, thread) := fun eq => same (congrArg Prod.fst eq)
      exact (equal.sound other).congr (works.others _ ne) works.size
  sound' other := by
    by_cases same : other = tracker
    · exact same ▸ sound'
    · have ne : (other, thread) ≠ (tracker, thread) := fun eq => same (congrArg Prod.fst eq)
      exact (equal.sound' other).congr (works'.others _ ne) works'.size
  made := made
  nodup := nodup
  own cell member := by
    obtain ⟨valid, here⟩ := own cell member
    exact ⟨valid, fun there => here ((works.elsewhere rfl cell).mp there)⟩
  contents := contents
  records := by rw [works.records, works'.records, equal.records]

/-- Only the stack of the tracker was changed. -/
theorem restacked {s s' : CallStack (Frame Code)} (equal : EqOn thread cells m m')
    (works : Works (tracker, thread) m (m.setStack (tracker, thread) s))
    (works' : Works (tracker, thread) m' (m'.setStack (tracker, thread) s'))
    (sound : (m.setStack (tracker, thread) s).Sound (tracker, thread))
    (sound' : (m'.setStack (tracker, thread) s').Sound (tracker, thread))
    (frames : List.Forall₂ (Frame.EqUpToCells cells) s.toList s'.toList) :
    EqOn thread cells (m.setStack (tracker, thread) s) (m'.setStack (tracker, thread) s') := by
  refine equal.changed works works' sound sound' List.prefix_rfl ?_ equal.made equal.nodup equal.own equal.contents
  rw [stack_setStack, stack_setStack]
  exact frames

theorem openFrame (equal : EqOn thread cells m m') (tracker : TrackerId) (owner : Option (Object Code))
    (method : String) :
    (m.openFrame (tracker, thread) owner method).1 = (m'.openFrame (tracker, thread) owner method).1 ∧
      EqOn thread cells (m.openFrame (tracker, thread) owner method).2
        (m'.openFrame (tracker, thread) owner method).2 := by
  have works := Works.openFrame (equal.sound tracker) owner method
  have works' := Works.openFrame (equal.sound' tracker) owner method
  have sound := (equal.sound tracker).openFrame (tracker, thread) owner method
  have sound' := (equal.sound' tracker).openFrame (tracker, thread) owner method
  obtain ⟨s, opens, toList⟩ := openFrame_eq (equal.sound tracker) owner method
  obtain ⟨s', opens', toList'⟩ := openFrame_eq (equal.sound' tracker) owner method
  rw [opens] at works sound ⊢
  rw [opens'] at works' sound' ⊢
  refine ⟨rfl, equal.restacked works works' sound sound' ?_⟩
  rw [toList, toList']
  exact .cons ⟨rfl, rfl, .nil⟩ (equal.frames tracker)

theorem closeFrame (equal : EqOn thread cells m m') (tracker : TrackerId) :
    (m.closeFrame (tracker, thread)).1 = (m'.closeFrame (tracker, thread)).1 ∧
      EqOn thread cells (m.closeFrame (tracker, thread)).2 (m'.closeFrame (tracker, thread)).2 := by
  have works := Works.closeFrame (equal.sound tracker)
  have works' := Works.closeFrame (equal.sound' tracker)
  have sound := (equal.sound tracker).closeFrame (tracker, thread)
  have sound' := (equal.sound' tracker).closeFrame (tracker, thread)
  have both := equal.frames tracker
  cases frames : (m.stack (tracker, thread)).toList with
  | nil =>
    rw [frames, List.forall₂_nil_left_iff] at both
    rw [closeFrame_nil (equal.sound tracker) frames, closeFrame_nil (equal.sound' tracker) both]
    exact ⟨rfl, equal⟩
  | cons frame rest =>
    rw [frames, List.forall₂_cons_left_iff] at both
    obtain ⟨frame', rest', _, below, frames'⟩ := both
    obtain ⟨s, closes, toList⟩ := closeFrame_cons (equal.sound tracker) frames
    obtain ⟨s', closes', toList'⟩ := closeFrame_cons (equal.sound' tracker) frames'
    rw [closes] at works sound ⊢
    rw [closes'] at works' sound' ⊢
    refine ⟨rfl, equal.restacked works works' sound sound' ?_⟩
    rw [toList, toList']
    exact below

/-- A cell of the thread is written in both memories. -/
theorem write (equal : EqOn thread cells m m') (works : Works (tracker, thread) m (m.write cell value))
    (works' : Works (tracker, thread) m' (m'.write i value)) (place : cells[i]? = some cell)
    (sound : (m.write cell value).Sound (tracker, thread)) (sound' : (m'.write i value).Sound (tracker, thread)) :
    EqOn thread cells (m.write cell value) (m'.write i value) := by
  refine equal.changed works works' sound sound' List.prefix_rfl (equal.frames tracker) ?_ equal.nodup ?_ ?_
  · rw [Memory.write, Array.size_modify]
    exact equal.made
  · intro other member
    rw [Memory.write, Array.size_modify]
    exact equal.own other member
  · intro j other place'
    have same : cell = other ↔ i = j := by
      obtain ⟨_, here⟩ := List.getElem?_eq_some_iff.mp place
      obtain ⟨_, here'⟩ := List.getElem?_eq_some_iff.mp place'
      rw [← here, ← here']
      exact equal.nodup.getElem_inj_iff
    have before := equal.contents j other place'
    simp only [Memory.write, Array.getElem?_modify]
    by_cases eq : i = j
    · rw [if_pos (same.mpr eq), if_pos eq, before]
    · rw [if_neg fun there => eq (same.mp there), if_neg eq, before]

/-- In both frames a variable is given a cell. -/
theorem insert {frame frame' : Frame Code} (first : Frame.EqUpToCells cells frame frame')
    (found : frame.vars.get? name = none) (found' : frame'.vars.get? name = none)
    (place : (cells ++ [cell])[i]? = some cell) :
    Frame.EqUpToCells (cells ++ [cell]) { frame with vars := frame.vars.insert name cell }
      { frame' with vars := frame'.vars.insert name i } := by
  refine ⟨first.owner, first.method, ?_⟩
  have entries : (frame.vars.insert name cell).entries = frame.vars.entries ++ [(name, cell)] :=
    OrderedMap.write_new (OrderedMap.find_none found)
  have entries' : (frame'.vars.insert name i).entries = frame'.vars.entries ++ [(name, i)] :=
    OrderedMap.write_new (OrderedMap.find_none found')
  have before := first.vars.imp fun _ _ paired => Paired.mono (List.prefix_append cells [cell]) paired
  rw [entries, entries']
  exact List.rel_append before (.cons ⟨rfl, place⟩ .nil)

/-- A cell that is new in both memories holds the same, as all others do. -/
theorem contents_newCell (equal : EqOn thread cells m m') (name : String) (value : Object Code)
    (place : (cells ++ [m.cells.size])[i]? = some cell) :
    (m.newCell name value).2.cells[cell]? = (m'.newCell name value).2.cells[i]? := by
  rcases Nat.lt_or_ge i cells.length with old | new
  · rw [List.getElem?_append_left old] at place
    have valid := (equal.own cell (List.mem_of_getElem? place)).1
    have valid' : i < m'.cells.size := equal.made ▸ old
    have before := equal.contents i cell place
    simpa [newCell, Array.getElem?_push, Nat.ne_of_lt valid, Nat.ne_of_lt valid'] using before
  · rw [List.getElem?_append_right new, List.getElem?_singleton] at place
    by_cases last : i - cells.length = 0
    · rw [if_pos last] at place
      have reached : i ≤ cells.length := Nat.le_of_sub_eq_zero last
      have here : i = m'.cells.size := (Nat.le_antisymm reached new).trans equal.made.symm
      obtain rfl := Option.some.inj place
      subst here
      simp [newCell]
    · rw [if_neg last] at place
      cases place

/-- The thread gets a new cell in both memories. -/
theorem extend {frame frame' : Frame Code} {rest rest' : List (Frame Code)} {s s' : CallStack (Frame Code)}
    (equal : EqOn thread cells m m') (lawful : m.Made)
    (works : Works (tracker, thread) m ((m.newCell name value).2.setStack (tracker, thread) s))
    (works' : Works (tracker, thread) m' ((m'.newCell name value).2.setStack (tracker, thread) s'))
    (sound : ((m.newCell name value).2.setStack (tracker, thread) s).Sound (tracker, thread))
    (sound' : ((m'.newCell name value).2.setStack (tracker, thread) s').Sound (tracker, thread))
    (first : Frame.EqUpToCells cells frame frame') (below : List.Forall₂ (Frame.EqUpToCells cells) rest rest')
    (found : frame.vars.get? name = none) (found' : frame'.vars.get? name = none)
    (toList : s.toList = { frame with vars := frame.vars.insert name m.cells.size } :: rest)
    (toList' : s'.toList = { frame' with vars := frame'.vars.insert name m'.cells.size } :: rest') :
    EqOn thread (cells ++ [m.cells.size]) ((m.newCell name value).2.setStack (tracker, thread) s)
      ((m'.newCell name value).2.setStack (tracker, thread) s') := by
  have size : ((m.newCell name value).2.setStack (tracker, thread) s).cells.size = m.cells.size + 1 := Array.size_push _
  have size' : ((m'.newCell name value).2.setStack (tracker, thread) s').cells.size = m'.cells.size + 1 :=
    Array.size_push _
  refine equal.changed works works' sound sound' (List.prefix_append _ _) ?_ ?_ ?_ ?_ ?_
  · rw [stack_setStack, stack_setStack, toList, toList']
    have place : (cells ++ [m.cells.size])[m'.cells.size]? = some m.cells.size := by
      rw [equal.made]
      exact List.getElem?_concat_length
    have older := below.imp fun _ _ equal => eqUpToCells_mono (List.prefix_append cells [m.cells.size]) equal
    exact .cons (insert first found found' place) older
  · rw [size', equal.made, List.length_append, List.length_singleton]
  · rw [List.nodup_append_comm, List.singleton_append, List.nodup_cons]
    refine ⟨?_, equal.nodup⟩
    intro member
    exact Nat.lt_irrefl _ (equal.own _ member).1
  · intro cell member
    rw [size]
    rcases List.mem_append.mp member with old | new
    · obtain ⟨valid, here⟩ := equal.own cell old
      exact ⟨Nat.lt_succ_of_lt valid, here⟩
    · rw [List.mem_singleton.mp new]
      refine ⟨Nat.lt_succ_self _, ?_⟩
      -- No frame has a cell that does not exist yet.
      rintro ⟨key, _, opened⟩
      exact Nat.lt_irrefl _ ((lawful.sound key).valid _ opened)
  · intro i cell place
    exact equal.contents_newCell name value place

/-- A variable is written in both memories. -/
theorem track (equal : EqOn thread cells m m') (lawful : m.Made) (tracker : TrackerId) (name : String)
    (value : Object Code) :
    (m.track (tracker, thread) name value).1 = (m'.track (tracker, thread) name value).1 ∧
      ∃ more, cells <+: more ∧
        EqOn thread more (m.track (tracker, thread) name value).2 (m'.track (tracker, thread) name value).2 := by
  by_cases named : name = ""
  · rw [Memory.track, Memory.track, if_pos named, if_pos named]
    exact ⟨rfl, cells, List.prefix_rfl, equal⟩
  have works := Works.track (equal.sound tracker) name value
  have works' := Works.track (equal.sound' tracker) name value
  have sound := (equal.sound tracker).track (tracker, thread) name value
  have sound' := (equal.sound' tracker).track (tracker, thread) name value
  have both := equal.frames tracker
  cases frames : (m.stack (tracker, thread)).toList with
  | nil =>
    rw [frames, List.forall₂_nil_left_iff] at both
    rw [track_none (equal.sound tracker) frames named, track_none (equal.sound' tracker) both named]
    exact ⟨rfl, cells, List.prefix_rfl, equal⟩
  | cons frame rest =>
    rw [frames, List.forall₂_cons_left_iff] at both
    obtain ⟨frame', rest', first, below, frames'⟩ := both
    rcases find_paired first.vars name with ⟨found, found'⟩ | ⟨cell, i, found, found', place⟩
    · obtain ⟨s, tracks, toList⟩ := track_unknown (equal.sound tracker) frames named found value
      obtain ⟨s', tracks', toList'⟩ := track_unknown (equal.sound' tracker) frames' named found' value
      rw [tracks] at works sound ⊢
      rw [tracks'] at works' sound' ⊢
      exact ⟨rfl, _, List.prefix_append _ _,
        equal.extend lawful works works' sound sound' first below found found' toList toList'⟩
    · have tracks := track_known (equal.sound tracker) frames named found value
      have tracks' := track_known (equal.sound' tracker) frames' named found' value
      rw [tracks] at works sound ⊢
      rw [tracks'] at works' sound' ⊢
      exact ⟨rfl, cells, List.prefix_rfl, equal.write works works' place sound sound'⟩

end

/-! ### What equal memories show -/

theorem contents_paired (equal : EqOn thread cells m m') {vars vars' : List (String × CellId)}
    (paired : List.Forall₂ (Paired cells) vars vars') :
    FaultSnapshot.contents m.cells vars = FaultSnapshot.contents m'.cells vars' := by
  induction paired with
  | nil => rfl
  | @cons e e' vars vars' first _ ih =>
    obtain ⟨name, place⟩ := first
    have same := equal.contents _ _ place
    cases held : m'.cells[e'.2]? with
    | none => rw [contents_cons_none held, contents_cons_none (same.trans held), ih]
    | some c => rw [contents_cons_some held, contents_cons_some (same.trans held), ih, name]

/-- The same frames are shown. -/
theorem pictures (equal : EqOn thread cells m m') (tracker : TrackerId) :
    m.pictures (tracker, thread) = m'.pictures (tracker, thread) := by
  rw [Memory.pictures, Memory.pictures, views, views, List.map_map, List.map_map]
  refine map_eq_map_of_forall₂ ((equal.frames tracker).imp ?_)
  intro f f' same
  simp only [Function.comp, picture_eq, Frame.view, same.owner, same.method, equal.contents_paired same.vars]

end EqOn

/-- Nothing was opened yet. -/
theorem eqOn_unopened (thread : Thread) (made : m.Made) (made' : m'.Made) (unopened : m.callStacks = ∅)
    (unopened' : m'.callStacks = ∅) (cells : m'.cells = #[]) (records : m.records = m'.records) :
    EqOn thread [] m m' where
  frames tracker := by
    have none : m.stack (tracker, thread) = .empty := by
      rw [stack, unopened]
      rfl
    have none' : m'.stack (tracker, thread) = .empty := by
      rw [stack, unopened']
      rfl
    rw [none, none']
    exact .nil
  sound _ := made.sound _
  sound' _ := made'.sound _
  made := by simp [cells]
  nodup := List.nodup_nil
  own _ member := absurd member List.not_mem_nil
  contents _ _ place := nomatch place
  records := records

end Memory

end FaultSnapshot
