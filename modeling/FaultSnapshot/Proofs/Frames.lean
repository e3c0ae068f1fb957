import FaultSnapshot.Frames.Memory
import Mathlib.Data.List.Basic
import Mathlib.Data.List.Induction

/-!
# Frames and what they show

The slots in use of a stack are its list, whatever the arena holds besides (`CallStack.toList`). In
a memory that is made by its own operations, each open frame has cells of its own, so a write to one
frame shows in that frame only: `Memory.Opened` says of a later memory what it shows above the
frames of an earlier one.
-/

namespace FaultSnapshot

variable {α Code : Type}

/-! ## Stacks -/

namespace CallStack

variable {s : CallStack α} {a : α} {rest : List α}

theorem push_toList (arena : s.height ≤ s.slots.size) (a : α) :
    ∃ s', s.push a = .ok s' ∧ s'.toList = a :: s.toList ∧ s'.height ≤ s'.slots.size := by
  unfold push
  by_cases room : s.height < s.slots.size
  · rw [dif_pos room]
    refine ⟨_, rfl, ?_, by simpa using Nat.succ_le_of_lt room⟩
    have inside : s.height < s.slots.toList.length := by simpa using room
    simp [toList, List.take_add_one, List.take_set_of_le, List.getElem?_set_self inside]
  · have full : s.height = s.slots.size := by omega
    rw [dif_neg room, if_pos full]
    refine ⟨_, rfl, ?_, by simp [full]⟩
    have all : s.slots.toList.take s.slots.size = s.slots.toList := List.take_of_length_le (by simp)
    simp [toList, full, List.take_add_one, all]

theorem pop_toList (arena : s.height ≤ s.slots.size) (full : s.toList = a :: rest) (cleared : α) :
    ∃ s', s.pop cleared = .ok (a, s') ∧ s'.toList = rest ∧ s'.height ≤ s'.slots.size := by
  obtain ⟨slots, height⟩ := s
  cases height with
  | zero => simp [toList] at full
  | succ top =>
    have inside : top < slots.size := arena
    simp only [toList, List.take_add_one] at full
    simp [inside] at full
    refine ⟨⟨slots.set top cleared inside, top⟩, ?_, ?_, ?_⟩
    · simp [pop, inside, full.1]
    · simp [toList, List.take_set_of_le, full.2]
    · simpa using Nat.le_of_lt inside

theorem length_toList (arena : s.height ≤ s.slots.size) : s.toList.length = s.height := by
  rw [toList, List.length_reverse, List.length_take, Array.length_toList, Nat.min_eq_left arena]

theorem top?_eq (arena : s.height ≤ s.slots.size) : s.top? = s.toList.head? := by
  obtain ⟨slots, height⟩ := s
  cases height with
  | zero => simp [top?, toList]
  | succ top =>
    have inside : top < slots.size := arena
    simp [top?, toList, List.take_add_one, inside]

theorem setTop_toList (arena : s.height ≤ s.slots.size) (full : s.toList = a :: rest) (b : α) :
    (s.setTop b).toList = b :: rest ∧ (s.setTop b).height ≤ (s.setTop b).slots.size := by
  obtain ⟨slots, height⟩ := s
  cases height with
  | zero => simp [toList] at full
  | succ top =>
    have inside : top < slots.size := arena
    simp only [toList, List.take_add_one] at full
    simp [inside] at full
    constructor
    · simp [setTop, toList, List.take_add_one, List.take_set_of_le, inside, full.2]
    · simpa [setTop] using arena

/-- A stack without slots in use refuses to shrink. -/
theorem pop_nil (none : s.toList = []) (arena : s.height ≤ s.slots.size) (cleared : α) :
    s.pop cleared = .error .underflow := by
  obtain ⟨slots, height⟩ := s
  cases height with
  | zero => rfl
  | succ top =>
    have inside : top < slots.size := arena
    simp [toList, List.take_add_one, inside] at none

end CallStack

/-! ## Contents of cells -/

namespace OrderedMap

variable {κ ν : Type} [DecidableEq κ]

theorem write_new {k : κ} {v : ν} {es : List (κ × ν)} (new : k ∉ es.map Prod.fst) : write k v es = es ++ [(k, v)] := by
  induction es with
  | nil => rfl
  | cons e es ih =>
    rw [List.map_cons, List.mem_cons, not_or] at new
    rw [write, if_neg (Ne.symm new.1), ih new.2, List.cons_append]

theorem ofList_concat (es : List (κ × ν)) (k : κ) (v : ν) :
    (ofList (es ++ [(k, v)])).entries = write k v (ofList es).entries := by
  rw [ofList, List.foldl_append]
  rfl

/-- Pairs with different keys stay as they are. -/
theorem entries_ofList {es : List (κ × ν)} (nodup : (es.map Prod.fst).Nodup) : (ofList es).entries = es := by
  induction es using List.reverseRecOn with
  | nil => rfl
  | append_singleton es e ih =>
    rw [List.map_append, List.nodup_append] at nodup
    have new : e.1 ∉ es.map Prod.fst := fun member => nodup.2.2 e.1 member e.1 (by simp) rfl
    rw [ofList_concat, ih nodup.1, write_new new]

theorem ofList_entries (m : OrderedMap κ ν) : ofList m.entries = m := ext (entries_ofList m.nodup)

theorem find_none {k : κ} {es : List (κ × ν)} (none : find k es = none) : k ∉ es.map Prod.fst := by
  induction es with
  | nil => simp
  | cons e es ih =>
    unfold find at none
    split at none
    · cases none
    · rename_i ne
      simpa using ⟨Ne.symm ne, by simpa using ih none⟩

theorem find_mem {k : κ} {v : ν} {es : List (κ × ν)} (found : find k es = some v) : (k, v) ∈ es := by
  induction es with
  | nil => cases found
  | cons e es ih =>
    unfold find at found
    split at found
    · rename_i same
      rw [← same, ← Option.some.inj found]
      exact List.mem_cons_self
    · exact List.mem_cons_of_mem _ (ih found)

end OrderedMap

/-- What named cells hold. -/
def contents (cells : Array (Cell Code)) (vars : List (String × CellId)) : List (String × Object Code) :=
  vars.filterMap fun e => cells[e.2]?.map fun c => (e.1, c.content)

theorem contents_cons_some {cells : Array (Cell Code)} {e : String × CellId} {vars : List (String × CellId)}
    {c : Cell Code} (holds : cells[e.2]? = some c) :
    contents cells (e :: vars) = (e.1, c.content) :: contents cells vars := by
  simp [contents, holds]

theorem contents_cons_none {cells : Array (Cell Code)} {e : String × CellId} {vars : List (String × CellId)}
    (holds : cells[e.2]? = none) : contents cells (e :: vars) = contents cells vars := by
  simp [contents, holds]

theorem contents_congr {cells cells' : Array (Cell Code)} {vars : List (String × CellId)}
    (same : ∀ cell ∈ vars.map Prod.snd, cells'[cell]? = cells[cell]?) : contents cells' vars = contents cells vars := by
  refine List.filterMap_congr ?_
  intro e member
  rw [same e.2 (List.mem_map_of_mem member)]

theorem nodup_contents {cells : Array (Cell Code)} {vars : List (String × CellId)} (nodup : (vars.map Prod.fst).Nodup) :
    ((contents cells vars).map Prod.fst).Nodup := by
  refine nodup.sublist ?_
  induction vars with
  | nil => exact .slnil
  | cons e vars ih =>
    rw [List.map_cons, List.nodup_cons] at nodup
    cases holds : cells[e.2]? with
    | none =>
      rw [contents_cons_none holds]
      exact (ih nodup.2).cons _
    | some c =>
      rw [contents_cons_some holds]
      exact (ih nodup.2).cons_cons _

/-- A write to the cell of a name shows under this name. -/
theorem contents_modify {cells : Array (Cell Code)} {vars : List (String × CellId)} {name : String} {cell : CellId}
    (found : OrderedMap.find name vars = some cell) (nodup : (vars.map Prod.snd).Nodup) (valid : cell < cells.size)
    (value : Object Code) :
    contents (cells.modify cell fun c => { c with content := value }) vars =
      OrderedMap.write name value (contents cells vars) := by
  induction vars with
  | nil => cases found
  | cons e vars ih =>
    rw [List.map_cons, List.nodup_cons] at nodup
    unfold OrderedMap.find at found
    split at found
    · rename_i same
      have here : e.2 = cell := Option.some.inj found
      have rest : contents (cells.modify cell fun c => { c with content := value }) vars = contents cells vars := by
        refine contents_congr ?_
        intro other member
        have ne : cell ≠ other := fun eq => nodup.1 (here ▸ eq ▸ member)
        simp [Array.getElem?_modify, ne]
      have before : cells[e.2]? = some cells[cell] := by simp [here, valid]
      have after : (cells.modify cell fun c => { c with content := value })[e.2]? =
          some { cells[cell] with content := value } := by
        rw [here, Array.getElem?_modify, if_pos rfl]
        simp [valid]
      rw [contents_cons_some before, contents_cons_some after, rest, OrderedMap.write, if_pos same, same]
    · rename_i other
      have ne : cell ≠ e.2 := fun eq => nodup.1 (eq ▸ List.mem_map_of_mem (f := Prod.snd) (OrderedMap.find_mem found))
      have same : (cells.modify cell fun c => { c with content := value })[e.2]? = cells[e.2]? := by
        simp [Array.getElem?_modify, ne]
      cases holds : cells[e.2]? with
      | none => rw [contents_cons_none holds, contents_cons_none (same.trans holds), ih found nodup.2]
      | some c =>
        rw [contents_cons_some holds, contents_cons_some (same.trans holds), ih found nodup.2, OrderedMap.write,
          if_neg other]

/-- A new cell under a new name shows at the end. -/
theorem contents_push {cells : Array (Cell Code)} {vars : List (String × CellId)} {name : String}
    (new : name ∉ vars.map Prod.fst) (valid : ∀ cell ∈ vars.map Prod.snd, cell < cells.size) (value : Object Code) :
    contents (cells.push ⟨name, value⟩) (OrderedMap.write name cells.size vars) =
      OrderedMap.write name value (contents cells vars) := by
  have unchanged : contents (cells.push ⟨name, value⟩) vars = contents cells vars := by
    refine contents_congr ?_
    intro cell member
    have below := valid cell member
    simp [Array.getElem?_push, Nat.ne_of_lt below]
  have unshown : name ∉ (contents cells vars).map Prod.fst := by
    intro member
    obtain ⟨shown, member, same⟩ := List.mem_map.mp member
    obtain ⟨e, member, shows⟩ := List.mem_filterMap.mp member
    obtain ⟨c, _, rfl⟩ := Option.map_eq_some_iff.mp shows
    subst same
    exact new (List.mem_map_of_mem (f := Prod.fst) ‹e ∈ vars›)
  rw [OrderedMap.write_new new, OrderedMap.write_new unshown, ← unchanged]
  simp [contents]

/-! ## Open frames -/

namespace Memory

variable {m m' m'' : Memory Code} {key : TrackerId × Thread} {p : Picture Code}

/-- The cells of the open frames. -/
def openCells (m : Memory Code) (key : TrackerId × Thread) : List CellId :=
  (m.stack key).toList.flatMap fun f => f.vars.entries.map Prod.snd

/-- The stack fits its arena, and each of its variables has a cell of its own. -/
structure Sound (m : Memory Code) (key : TrackerId × Thread) : Prop where
  arena : (m.stack key).height ≤ (m.stack key).slots.size
  valid : ∀ cell ∈ m.openCells key, cell < m.cells.size
  nodup : (m.openCells key).Nodup

/-- The open frames are the same, and their variables hold the same objects. -/
structure Undisturbed (key : TrackerId × Thread) (m m' : Memory Code) : Prop where
  frames : (m'.stack key).toList = (m.stack key).toList
  cells : ∀ cell ∈ m.openCells key, m'.cells[cell]? = m.cells[cell]?
  sound : m.Sound key → m'.Sound key

/-- There is one more open frame, which shows `p`; those below are undisturbed. -/
structure Opened (key : TrackerId × Thread) (m : Memory Code) (p : Picture Code) (m' : Memory Code) : Prop where
  frames : ∃ frame, (m'.stack key).toList = frame :: (m.stack key).toList ∧ m'.picture frame.view = p
  cells : ∀ cell ∈ m.openCells key, m'.cells[cell]? = m.cells[cell]?
  sound : m'.Sound key

theorem picture_eq (m : Memory Code) (v : View Code) :
    m.picture v = ⟨v.owner, v.method, contents m.cells v.vars.entries⟩ := rfl

@[simp] theorem stack_setStack {s : CallStack (Frame Code)} : (m.setStack key s).stack key = s := by
  simp [stack, setStack]

theorem stack_setStack_of_ne {key' : TrackerId × Thread} {s : CallStack (Frame Code)} (ne : key' ≠ key) :
    (m.setStack key s).stack key' = m.stack key' := by
  simp [stack, setStack, OrderedMap.get?_insert_of_ne ne]

theorem Undisturbed.refl (key : TrackerId × Thread) (m : Memory Code) : Undisturbed key m m :=
  ⟨rfl, fun _ _ => rfl, fun sound => sound⟩

theorem openCells_congr (frames : (m'.stack key).toList = (m.stack key).toList) :
    m'.openCells key = m.openCells key := by
  rw [openCells, openCells, frames]

theorem Undisturbed.trans (first : Undisturbed key m m') (later : Undisturbed key m' m'') : Undisturbed key m m'' where
  frames := later.frames.trans first.frames
  cells cell member := (later.cells cell (openCells_congr first.frames ▸ member)).trans (first.cells cell member)
  sound sound := later.sound (first.sound sound)

/-- Frames with the same cells show the same. -/
theorem pictures_congr {frames : List (Frame Code)}
    (cells : ∀ cell ∈ frames.flatMap fun f => f.vars.entries.map Prod.snd, m'.cells[cell]? = m.cells[cell]?) :
    (frames.map Frame.view).map m'.picture = (frames.map Frame.view).map m.picture := by
  rw [List.map_map, List.map_map]
  refine List.map_congr_left ?_
  intro f member
  have same : contents m'.cells f.vars.entries = contents m.cells f.vars.entries :=
    contents_congr fun cell inside => cells cell (List.mem_flatMap.mpr ⟨f, member, inside⟩)
  simp only [Function.comp, picture_eq, Frame.view, same]

theorem Undisturbed.views (undisturbed : Undisturbed key m m') : m'.views key = m.views key := by
  rw [Memory.views, Memory.views, undisturbed.frames]

theorem Undisturbed.pictures (undisturbed : Undisturbed key m m') : m'.pictures key = m.pictures key := by
  rw [Memory.pictures, Memory.pictures, undisturbed.views]
  exact pictures_congr undisturbed.cells

theorem Opened.pictures (opened : Opened key m p m') : m'.pictures key = p :: m.pictures key := by
  obtain ⟨frame, frames, shows⟩ := opened.frames
  rw [Memory.pictures, views, frames, List.map_cons, List.map_cons, shows]
  exact congrArg (p :: ·) (pictures_congr opened.cells)

theorem openCells_cons {frame : Frame Code} {rest : List (Frame Code)} (frames : (m.stack key).toList = frame :: rest) :
    m.openCells key = frame.vars.entries.map Prod.snd ++ rest.flatMap fun f => f.vars.entries.map Prod.snd := by
  rw [openCells, frames, List.flatMap_cons]

theorem Opened.undisturbed (opened : Opened key m p m') (undisturbed : Undisturbed key m' m'') :
    Opened key m p m'' := by
  obtain ⟨frame, frames, shows⟩ := opened.frames
  have cells := openCells_cons frames
  refine ⟨⟨frame, undisturbed.frames.trans frames, ?_⟩, ?_, undisturbed.sound opened.sound⟩
  · have same : contents m''.cells frame.vars.entries = contents m'.cells frame.vars.entries := by
      apply contents_congr
      intro cell member
      refine undisturbed.cells cell ?_
      rw [cells]
      exact List.mem_append_left _ member
    rw [← shows, picture_eq, picture_eq, Frame.view, same]
  · intro cell member
    have inside : cell ∈ m'.openCells key := by
      rw [cells]
      exact List.mem_append_right _ member
    exact (undisturbed.cells cell inside).trans (opened.cells cell member)

/-! ### Operations -/

theorem openFrame_opened (sound : m.Sound key) (owner : Option (Object Code)) (method : String) :
    ∃ m', m.openFrame key owner method = (.ok (), m') ∧ Opened key m ⟨owner, method, []⟩ m' := by
  obtain ⟨s, pushed, toList, arena⟩ := CallStack.push_toList sound.arena (.opened owner method)
  refine ⟨m.setStack key s, by simp [openFrame, pushed], ⟨_, by simpa using toList, rfl⟩, fun _ _ => rfl, ?_⟩
  have cells : (m.setStack key s).openCells key = m.openCells key := by
    rw [openCells, stack_setStack, toList]
    rfl
  exact ⟨by simpa using arena, cells ▸ sound.valid, cells ▸ sound.nodup⟩

theorem closeFrame_undisturbed (sound : m.Sound key) (opened : Opened key m p m') :
    ∃ m'', m'.closeFrame key = (.ok (), m'') ∧ Undisturbed key m m'' := by
  obtain ⟨frame, frames, _⟩ := opened.frames
  obtain ⟨s, popped, toList, arena⟩ := CallStack.pop_toList opened.sound.arena frames .cleared
  refine ⟨m'.setStack key s, by simp [closeFrame, popped], by simpa using toList, opened.cells, ?_⟩
  intro _
  have cells : (m'.setStack key s).openCells key = m.openCells key := by
    rw [openCells, stack_setStack, toList]
    rfl
  have inside := openCells_cons frames
  refine ⟨by simpa using arena, ?_, cells ▸ sound.nodup⟩
  intro cell member
  rw [cells] at member
  refine opened.sound.valid cell ?_
  rw [inside]
  exact List.mem_append_right _ member

/-- The cells of the innermost frame are its own. -/
theorem Opened.own_cells (opened : Opened key m p m') {frame : Frame Code}
    (frames : (m'.stack key).toList = frame :: (m.stack key).toList) :
    (∀ cell ∈ frame.vars.entries.map Prod.snd, cell < m'.cells.size) ∧ (frame.vars.entries.map Prod.snd).Nodup ∧
      ∀ cell ∈ frame.vars.entries.map Prod.snd, ∀ other ∈ m.openCells key, cell ≠ other := by
  have inside := openCells_cons frames
  have nodup := opened.sound.nodup
  rw [inside, List.nodup_append] at nodup
  obtain ⟨own, _, apart⟩ := nodup
  refine ⟨?_, own, apart⟩
  intro cell member
  refine opened.sound.valid cell ?_
  rw [inside]
  exact List.mem_append_left _ member

/-- A write to a cell of the innermost frame shows in that frame. -/
theorem Opened.write (opened : Opened key m p m') {frame : Frame Code}
    (frames : (m'.stack key).toList = frame :: (m.stack key).toList) (shows : m'.picture frame.view = p) {name : String}
    {cell : CellId} (found : frame.vars.get? name = some cell) (value : Object Code) :
    Opened key m { p with vars := OrderedMap.write name value p.vars } (m'.write cell value) := by
  obtain ⟨valid, own, apart⟩ := opened.own_cells frames
  have member : cell ∈ frame.vars.entries.map Prod.snd :=
    List.mem_map_of_mem (f := Prod.snd) (OrderedMap.find_mem found)
  refine ⟨⟨frame, frames, ?_⟩, ?_, opened.sound.arena, ?_, opened.sound.nodup⟩
  · rw [← shows, picture_eq, picture_eq, Frame.view]
    exact congrArg _ (contents_modify found own (valid cell member) value)
  · intro other below
    have ne : cell ≠ other := apart cell member other below
    rw [← opened.cells other below]
    simp [Memory.write, Array.getElem?_modify, ne]
  · intro other inside
    have below := opened.sound.valid other inside
    simpa [Memory.write] using below

/-- A new cell in the innermost frame shows in that frame. -/
theorem Opened.extend (opened : Opened key m p m') {frame : Frame Code}
    (frames : (m'.stack key).toList = frame :: (m.stack key).toList) (shows : m'.picture frame.view = p) {name : String}
    (found : frame.vars.get? name = none) (value : Object Code) :
    Opened key m { p with vars := OrderedMap.write name value p.vars }
      (({ m' with cells := m'.cells.push ⟨name, value⟩ } : Memory Code).setStack key
        ((m'.stack key).setTop { frame with vars := frame.vars.insert name m'.cells.size })) := by
  obtain ⟨valid, _, _⟩ := opened.own_cells frames
  have inside := openCells_cons frames
  have new := OrderedMap.find_none found
  let extended : Frame Code := { frame with vars := frame.vars.insert name m'.cells.size }
  let after : Memory Code :=
    ({ m' with cells := m'.cells.push ⟨name, value⟩ } : Memory Code).setStack key ((m'.stack key).setTop extended)
  obtain ⟨toList, arena⟩ := CallStack.setTop_toList opened.sound.arena frames extended
  have stack : (after.stack key).toList = extended :: (m.stack key).toList := by
    rw [stack_setStack, toList]
  have size : after.cells.size = m'.cells.size + 1 := Array.size_push _
  have entries : extended.vars.entries = frame.vars.entries ++ [(name, m'.cells.size)] := OrderedMap.write_new new
  -- The only new cell is the last one, and no frame had it before.
  have cells : after.openCells key = (frame.vars.entries.map Prod.snd ++ [m'.cells.size]) ++
      (m.stack key).toList.flatMap fun f => f.vars.entries.map Prod.snd := by
    rw [openCells_cons stack, entries, List.map_append]
    rfl
  refine ⟨⟨extended, stack, ?_⟩, ?_, ?_, ?_, ?_⟩
  · rw [← shows, picture_eq, picture_eq, Frame.view]
    exact congrArg _ (contents_push new valid value)
  · intro other below
    have below' := opened.sound.valid other (by rw [inside]; exact List.mem_append_right _ below)
    rw [← opened.cells other below]
    simp [setStack, Array.getElem?_push, Nat.ne_of_lt below']
  · rw [stack_setStack]
    exact arena
  · intro cell member
    show cell < after.cells.size
    rw [size]
    change cell ∈ after.openCells key at member
    rw [cells, List.append_assoc, List.mem_append, List.mem_append, List.mem_singleton] at member
    rcases member with member | same | member
    · exact Nat.lt_succ_of_lt (valid cell member)
    · exact same ▸ Nat.lt_succ_self _
    · exact Nat.lt_succ_of_lt (opened.sound.valid cell (by rw [inside]; exact List.mem_append_right _ member))
  · show (after.openCells key).Nodup
    have fresh : m'.cells.size ∉ m'.openCells key := by
      intro member
      exact Nat.lt_irrefl _ (opened.sound.valid _ member)
    rw [inside] at fresh
    rw [cells, List.append_assoc, List.singleton_append, List.perm_middle.nodup_iff]
    exact List.nodup_cons.mpr ⟨fresh, inside ▸ opened.sound.nodup⟩

/-- A write to a variable of the innermost frame shows in that frame. -/
theorem track_opened (opened : Opened key m p m') {name : String} (named : name ≠ "") (value : Object Code) :
    ∃ m'', m'.track key name value = (.ok (), m'') ∧
      Opened key m { p with vars := OrderedMap.write name value p.vars } m'' := by
  obtain ⟨frame, frames, shows⟩ := opened.frames
  have top : (m'.stack key).top? = some frame := by
    rw [CallStack.top?_eq opened.sound.arena, frames]
    rfl
  unfold track
  rw [if_neg named]
  cases found : frame.vars.get? name with
  | some cell =>
    refine ⟨_, ?_, opened.write frames shows found value⟩
    simp only [top, found]
  | none =>
    refine ⟨_, ?_, opened.extend frames shows found value⟩
    simp only [top, found]
    rfl

/-! ### Memories made by operations -/

/-- The memory was made by operations, the cells and frames of all threads included. -/
inductive Made : Memory Code → Prop
  | empty : Made empty
  | newObject {m : Memory Code} (payload : Payload Code) (made : Made m) : Made (m.newObject payload).2
  | newRecord {m : Memory Code} (text : String) (number : Int) (made : Made m) : Made (m.newRecord text number).2
  | modifyRecord {m : Memory Code} (i : Nat) (f : SharedRecord → SharedRecord) (made : Made m) :
      Made (m.modifyRecord i f)
  | newCell {m : Memory Code} (name : String) (content : Object Code) (made : Made m) : Made (m.newCell name content).2
  | write {m : Memory Code} (cell : CellId) (content : Object Code) (made : Made m) : Made (m.write cell content)
  | openFrame {m : Memory Code} (key : TrackerId × Thread) (owner : Option (Object Code)) (method : String)
      (made : Made m) : Made (m.openFrame key owner method).2
  | closeFrame {m : Memory Code} (key : TrackerId × Thread) (made : Made m) : Made (m.closeFrame key).2
  | track {m : Memory Code} (key : TrackerId × Thread) (name : String) (value : Object Code) (made : Made m) :
      Made (m.track key name value).2

/-- The frames of one stack do not suffer from more cells. -/
theorem Sound.congr (sound : m.Sound key) (stack : m'.stack key = m.stack key) (cells : m.cells.size ≤ m'.cells.size) :
    m'.Sound key := by
  have same : m'.openCells key = m.openCells key := openCells_congr (by rw [stack])
  refine ⟨stack ▸ sound.arena, ?_, same ▸ sound.nodup⟩
  intro cell member
  have valid : cell < m.cells.size := sound.valid cell (same ▸ member)
  exact Nat.lt_of_lt_of_le valid cells

/-- The innermost open frame can be taken as opened last. -/
theorem Sound.opened (sound : m.Sound key) {frame : Frame Code} {rest : List (Frame Code)}
    (frames : (m.stack key).toList = frame :: rest) :
    ∃ m₀ : Memory Code, m₀.Sound key ∧ Opened key m₀ (m.picture frame.view) m := by
  obtain ⟨s, _, toList, arena⟩ := CallStack.pop_toList sound.arena frames .cleared
  have inside := openCells_cons frames
  have cells : (m.setStack key s).openCells key = rest.flatMap fun f => f.vars.entries.map Prod.snd := by
    rw [openCells, stack_setStack, toList]
  refine ⟨m.setStack key s, ⟨by simpa using arena, ?_, ?_⟩, ⟨frame, ?_, rfl⟩, fun _ _ => rfl, sound⟩
  · intro cell member
    exact sound.valid cell (by rw [inside]; exact List.mem_append_right _ (cells ▸ member))
  · rw [cells]
    exact (List.nodup_append.mp (inside ▸ sound.nodup)).2.1
  · rw [stack_setStack, toList, frames]

theorem Sound.openFrame (sound : m.Sound key) (key' : TrackerId × Thread) (owner : Option (Object Code))
    (method : String) : (m.openFrame key' owner method).2.Sound key := by
  by_cases same : key' = key
  · subst same
    obtain ⟨m', opens, opened⟩ := openFrame_opened sound owner method
    rw [opens]
    exact opened.sound
  · unfold Memory.openFrame
    split
    · exact sound.congr (stack_setStack_of_ne (Ne.symm same)) (Nat.le_refl _)
    · exact sound

theorem Sound.closeFrame (sound : m.Sound key) (key' : TrackerId × Thread) : (m.closeFrame key').2.Sound key := by
  by_cases same : key' = key
  · subst same
    cases frames : (m.stack key').toList with
    | nil =>
      rw [Memory.closeFrame, CallStack.pop_nil frames sound.arena]
      exact sound
    | cons frame rest =>
      obtain ⟨m₀, sound₀, opened⟩ := sound.opened frames
      obtain ⟨m', closes, undisturbed⟩ := closeFrame_undisturbed sound₀ opened
      rw [closes]
      exact undisturbed.sound sound₀
  · unfold Memory.closeFrame
    split
    · exact sound.congr (stack_setStack_of_ne (Ne.symm same)) (Nat.le_refl _)
    · exact sound

theorem Sound.track (sound : m.Sound key) (key' : TrackerId × Thread) (name : String) (value : Object Code) :
    (m.track key' name value).2.Sound key := by
  by_cases named : name = ""
  · rw [Memory.track, if_pos named]
    exact sound
  · by_cases same : key' = key
    · subst same
      cases frames : (m.stack key').toList with
      | nil =>
        have top : (m.stack key').top? = none := by rw [CallStack.top?_eq sound.arena, frames]; rfl
        rw [Memory.track, if_neg named]
        simp only [top]
        exact sound
      | cons frame rest =>
        obtain ⟨m₀, _, opened⟩ := sound.opened frames
        obtain ⟨m', tracks, opened⟩ := track_opened opened named value
        rw [tracks]
        exact opened.sound
    · unfold Memory.track
      rw [if_neg named]
      cases top : (m.stack key').top? with
      | none =>
        simp only [top]
        exact sound
      | some frame =>
        cases found : frame.vars.get? name with
        | some cell =>
          simp only [top, found]
          exact sound.congr rfl (by simp [Memory.write])
        | none =>
          simp only [top, found]
          exact sound.congr (stack_setStack_of_ne (Ne.symm same)) (by simp [newCell, setStack])

theorem Made.sound (made : Made m) (key : TrackerId × Thread) : m.Sound key := by
  induction made with
  | empty => exact ⟨Nat.le_refl 0, fun _ member => (nomatch member), List.nodup_nil⟩
  | newObject payload _ ih => exact ih.congr rfl (Nat.le_refl _)
  | newRecord text number _ ih => exact ih.congr rfl (Nat.le_refl _)
  | modifyRecord i f _ ih => exact ih.congr rfl (Nat.le_refl _)
  | newCell name content _ ih => exact ih.congr rfl (by simp [Memory.newCell])
  | write cell content _ ih => exact ih.congr rfl (by simp [Memory.write])
  | openFrame key' owner method _ ih => exact ih.openFrame key' owner method
  | closeFrame key' _ ih => exact ih.closeFrame key'
  | track key' name value _ ih => exact ih.track key' name value

end Memory

end FaultSnapshot
