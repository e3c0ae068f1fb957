import FaultSnapshot.Proofs.Account
import FaultSnapshot.Proofs.Frames

/-!
# What frames and views show

A memory on which calls were made matches the account of these calls (`Memory.Matches`): the frames in
use are the open activations, and each cell is the home of one variable of one activation, whatever
slot its frame is in or was in. So the frames show what a plain stack holds
(`Memory.refines_plain_stack`), and a view goes on to show the activation that it was taken of
(`Memory.views_stay_with_activation`).
-/

namespace FaultSnapshot

variable {Code : Type}

theorem forall₂_imp_of_mem {α β : Type} {R S : α → β → Prop} {xs : List α} {ys : List β} (all : List.Forall₂ R xs ys)
    (imp : ∀ x, ∀ y ∈ ys, R x y → S x y) : List.Forall₂ S xs ys := by
  induction all with
  | nil => exact .nil
  | cons first _ ih =>
    exact .cons (imp _ _ List.mem_cons_self first) (ih fun x y member => imp x y (List.mem_cons_of_mem _ member))

theorem forall₂_filterMap {α β γ : Type} {R : α → β → Prop} {S : α → γ → Prop} {f : β → Option γ} {xs : List α}
    {ys : List β} (all : List.Forall₂ R xs ys) (step : ∀ x y, R x y → ∃ z, f y = some z ∧ S x z) :
    List.Forall₂ S xs (ys.filterMap f) := by
  induction all with
  | nil => exact .nil
  | cons first _ ih =>
    obtain ⟨z, found, related⟩ := step _ _ first
    rw [List.filterMap_cons_some found]
    exact .cons related ih

theorem map_eq_map_of_forall₂ {α β γ : Type} {f : α → γ} {g : β → γ} {xs : List α} {ys : List β}
    (all : List.Forall₂ (fun x y => f x = g y) xs ys) : xs.map f = ys.map g := by
  rw [← List.forall₂_eq_eq_eq, List.forall₂_map_left_iff, List.forall₂_map_right_iff]
  exact all

theorem exists_of_forall₂ {α β : Type} {R : α → β → Prop} {xs : List α} {ys : List β} {i : Nat} {x : α}
    (all : List.Forall₂ R xs ys) (found : xs[i]? = some x) : ∃ y, ys[i]? = some y ∧ R x y := by
  obtain ⟨inside, rfl⟩ := List.getElem?_eq_some_iff.mp found
  have inside' : i < ys.length := all.length_eq ▸ inside
  exact ⟨ys[i], List.getElem?_eq_getElem inside', all.get inside inside'⟩

namespace Memory

/-- A call on the stack of a tracker on a thread. -/
def call (m : Memory Code) (key : TrackerId × Thread) : FrameCall Code → Except Fault Unit × Memory Code
  | .openFrame owner method => m.openFrame key owner method
  | .closeFrame => m.closeFrame key
  | .track name value => m.track key name value

def after (m : Memory Code) (calls : FrameCalls Code) : Memory Code := calls.foldl (fun m c => (m.call c.1 c.2).2) m

/-! ## Homes of cells -/

/-- The variables are cells of activation `j`, under their own names. -/
def Belong (cells : Array (Cell Code)) (home : CellId → Nat) (j : Nat) (vars : List (String × CellId)) : Prop :=
  ∀ e ∈ vars, home e.2 = j ∧ ∃ c, cells[e.2]? = some c ∧ c.name = e.1

/-- Cells stay where they are at home, and keep their names. -/
def Stay (cells cells' : Array (Cell Code)) (home home' : CellId → Nat) : Prop :=
  ∀ cell c, cells[cell]? = some c → home' cell = home cell ∧ ∃ c', cells'[cell]? = some c' ∧ c'.name = c.name

/-- The frame is that of activation `j`. -/
def Plays (cells : Array (Cell Code)) (home : CellId → Nat) (a : Account Code) (frame : Frame Code) (j : Nat) : Prop :=
  ∃ activation, a.activations[j]? = some activation ∧ frame.owner = activation.owner ∧
    frame.method = some activation.method ∧ frame.vars.keys = activation.names ∧ Belong cells home j frame.vars.entries

/-- The frames in use are the open activations, and each cell holds what was last written to one
    variable of one activation, which has no other cell. -/
structure Matches (m : Memory Code) (home : CellId → Nat) (a : Account Code) : Prop where
  sound : a.Sound
  arena : ∀ key, (m.stack key).height ≤ (m.stack key).slots.size
  frames : ∀ key, List.Forall₂ (Plays m.cells home a) (m.stack key).toList (a.opened key)
  contents : ∀ cell c, m.cells[cell]? = some c →
    ∃ activation, a.activations[home cell]? = some activation ∧ activation.last? c.name = some c.content
  apart : ∀ cell cell' c c', m.cells[cell]? = some c → m.cells[cell']? = some c' → home cell = home cell' →
    c.name = c'.name → cell = cell'

variable {m m' : Memory Code} {home home' : CellId → Nat} {a a' : Account Code} {key : TrackerId × Thread}
  {cells cells' cells'' : Array (Cell Code)} {frame : Frame Code} {rest : List (Frame Code)} {j : Nat}
  {activation : Activation Code} {vars : List (String × CellId)} {name : String} {value : Object Code} {cell : CellId}

theorem Stay.refl (cells : Array (Cell Code)) (home : CellId → Nat) : Stay cells cells home home :=
  fun _ c found => ⟨rfl, c, found, rfl⟩

theorem Stay.trans {home'' : CellId → Nat} (first : Stay cells cells' home home')
    (later : Stay cells' cells'' home' home'') : Stay cells cells'' home home'' := by
  intro cell c found
  obtain ⟨at_home, c', found', named⟩ := first cell c found
  obtain ⟨at_home', c'', found'', named'⟩ := later cell c' found'
  exact ⟨at_home'.trans at_home, c'', found'', named'.trans named⟩

theorem belong_nil (cells : Array (Cell Code)) (home : CellId → Nat) (j : Nat) : Belong cells home j [] :=
  fun _ member => absurd member List.not_mem_nil

theorem Belong.stay (belong : Belong cells home j vars) (stay : Stay cells cells' home home') :
    Belong cells' home' j vars := by
  intro e member
  obtain ⟨at_home, c, found, named⟩ := belong e member
  obtain ⟨at_home', c', found', named'⟩ := stay e.2 c found
  exact ⟨at_home'.trans at_home, c', found', named'.trans named⟩

/-- A frame plays on while its activation is written under known names only. -/
theorem Plays.call (plays : Plays cells home a frame j) (stay : Stay cells cells' home home') {c : FrameCall Code}
    (known : (a.opened key).head? = some j → ∀ activation, a.activations[j]? = some activation →
      (c.written activation).names = activation.names) :
    Plays cells' home' (a.call key c) frame j := by
  obtain ⟨activation, found, owner, method, names, belong⟩ := plays
  have valid : j < a.activations.length := (List.getElem?_eq_some_iff.mp found).1
  have after := Account.activations_call valid key c
  rw [found, Option.map_some] at after
  refine ⟨_, after, ?_, ?_, ?_, belong.stay stay⟩
  · rw [owner]
    split <;> simp
  · rw [method]
    split <;> simp
  · split
    case isTrue top => rw [names, known top activation found]
    case isFalse _ => exact names

/-- Frames of other stacks play on. -/
theorem Matches.others (matched : m.Matches home a) (stay : Stay m.cells cells' home home') {key' : TrackerId × Thread}
    (other : key' ≠ key) (c : FrameCall Code) :
    List.Forall₂ (Plays cells' home' (a.call key c)) (m.stack key').toList (a.opened key') := by
  refine forall₂_imp_of_mem (matched.frames key') ?_
  intro frame j member plays
  refine plays.call stay ?_
  intro top
  exact absurd (matched.sound.apart key' key j member (List.mem_of_head? top)) other

/-- The frames below the innermost one play on. -/
theorem Matches.below (matched : m.Matches home a) (stay : Stay m.cells cells' home home') {js : List Nat}
    (frames : (m.stack key).toList = frame :: rest) (opened : a.opened key = j :: js) (c : FrameCall Code) :
    List.Forall₂ (Plays cells' home' (a.call key c)) rest js := by
  have all := matched.frames key
  rw [frames, opened] at all
  have nodup := matched.sound.nodup key
  rw [opened, List.nodup_cons] at nodup
  refine forall₂_imp_of_mem (List.forall₂_cons.mp all).2 ?_
  intro frame i member plays
  refine plays.call stay ?_
  intro top
  rw [opened, List.head?_cons, Option.some.injEq] at top
  exact absurd (top ▸ member) nodup.1

/-! ## Calls -/

/-- A call that writes nothing. -/
theorem Matches.restack (matched : m.Matches home a) {c : FrameCall Code} (silent : c.written = id)
    {s : CallStack (Frame Code)} (arena : s.height ≤ s.slots.size)
    (others : ∀ key', key' ≠ key → (a.call key c).opened key' = a.opened key')
    (frames : List.Forall₂ (Plays m.cells home (a.call key c)) s.toList ((a.call key c).opened key)) :
    (m.setStack key s).Matches home (a.call key c) where
  sound := matched.sound.call key c
  arena key' := by
    by_cases same : key' = key
    · subst same
      simpa using arena
    · rw [stack_setStack_of_ne same]
      exact matched.arena key'
  frames key' := by
    by_cases same : key' = key
    · subst same
      rw [stack_setStack]
      exact frames
    · rw [stack_setStack_of_ne same, others key' same]
      exact matched.others (.refl _ _) same c
  contents cell content found := by
    obtain ⟨activation, at_home, holds⟩ := matched.contents cell content found
    have valid := (List.getElem?_eq_some_iff.mp at_home).1
    refine ⟨activation, ?_, holds⟩
    rw [Account.activations_call valid, at_home, silent]
    simp
  apart := matched.apart

theorem Matches.openFrame (matched : m.Matches home a) (key : TrackerId × Thread) (owner : Option (Object Code))
    (method : String) : ∃ m', m.openFrame key owner method = (.ok (), m') ∧ m'.cells = m.cells ∧
      m'.Matches home (a.call key (.openFrame owner method)) := by
  obtain ⟨s, pushed, toList, arena⟩ := CallStack.push_toList (matched.arena key) (.opened owner method)
  refine ⟨m.setStack key s, by simp [Memory.openFrame, pushed], rfl, matched.restack rfl arena ?_ ?_⟩
  · intro key' other
    exact Function.update_of_ne other _ _
  · have opened : (a.call key (.openFrame owner method)).opened key = a.activations.length :: a.opened key :=
      Function.update_self _ _ _
    rw [toList, opened]
    refine .cons ?_ ?_
    · exact ⟨⟨owner, method, []⟩, by simp [Account.call], rfl, rfl, rfl, belong_nil _ _ _⟩
    · exact (matched.frames key).imp fun frame j plays => plays.call (.refl _ _) fun _ _ _ => rfl

theorem Matches.closeFrame (matched : m.Matches home a) (frames : (m.stack key).toList = frame :: rest) :
    ∃ m', m.closeFrame key = (.ok (), m') ∧ m'.cells = m.cells ∧ m'.Matches home (a.call key .closeFrame) := by
  obtain ⟨s, popped, toList, arena⟩ := CallStack.pop_toList (matched.arena key) frames .cleared
  refine ⟨m.setStack key s, by simp [Memory.closeFrame, popped], rfl, matched.restack rfl arena ?_ ?_⟩
  · intro key' other
    exact Function.update_of_ne other _ _
  · have all := matched.frames key
    rw [frames] at all
    obtain ⟨j, js, _, _, opened⟩ := List.forall₂_cons_left_iff.mp all
    have after : (a.call key .closeFrame).opened key = js :=
      (Function.update_self _ _ _).trans (congrArg List.tail opened)
    rw [toList, after]
    exact matched.below (.refl _ _) frames opened .closeFrame

/-- The innermost frame and its activation. -/
theorem Matches.top (matched : m.Matches home a) (frames : (m.stack key).toList = frame :: rest) :
    ∃ j js, a.opened key = j :: js ∧ Plays m.cells home a frame j := by
  have all := matched.frames key
  rw [frames] at all
  obtain ⟨j, js, plays, _, opened⟩ := List.forall₂_cons_left_iff.mp all
  exact ⟨j, js, opened, plays⟩

/-! ## Writes -/

/-- The cells after a write to a variable of activation `j`: one has the new value, and the others are
    of other variables and as before. -/
structure Writes (cells cells' : Array (Cell Code)) (home home' : CellId → Nat) (j : Nat) (name : String)
    (value : Object Code) (target : CellId) : Prop where
  stay : Stay cells cells' home home'
  cells : ∀ cell c, cells'[cell]? = some c →
    cell = target ∧ home' cell = j ∧ c = ⟨name, value⟩ ∨
      home' cell = home cell ∧ cells[cell]? = some c ∧ (home cell = j → c.name ≠ name)

/-- The cells after a write hold what was last written. -/
theorem Matches.contents_writes (matched : m.Matches home a) {target : CellId}
    (writes : Writes m.cells cells' home home' j name value target) {js : List Nat} (opened : a.opened key = j :: js)
    (active : a.activations[j]? = some activation) (named : name ≠ "") {c : Cell Code} (found : cells'[cell]? = some c) :
    ∃ activation, (a.call key (.track name value)).activations[home' cell]? = some activation ∧
      activation.last? c.name = some c.content := by
  have written := Account.active_track opened active named value
  rcases writes.cells cell c found with ⟨_, at_home, rfl⟩ | ⟨same, before, other⟩
  · exact ⟨_, at_home ▸ written, Activation.last?_write_self⟩
  · obtain ⟨held, at_home, holds⟩ := matched.contents cell c before
    rw [same]
    by_cases here : home cell = j
    · rw [here] at at_home ⊢
      obtain rfl := Option.some.inj (active.symm.trans at_home)
      exact ⟨_, written, (Activation.last?_write_of_ne (other here)).trans holds⟩
    · refine ⟨held, ?_, holds⟩
      have valid := (List.getElem?_eq_some_iff.mp at_home).1
      have elsewhere : (a.opened key).head? ≠ some (home cell) := by
        rw [opened, List.head?_cons]
        exact fun top => here (Option.some.inj top).symm
      rw [Account.activations_call_of_ne valid elsewhere, at_home]

/-- After a write no two cells are of the same variable. -/
theorem Matches.apart_writes (matched : m.Matches home a) {target : CellId}
    (writes : Writes m.cells cells' home home' j name value target) {cell₁ cell₂ : CellId} {c₁ c₂ : Cell Code}
    (found₁ : cells'[cell₁]? = some c₁) (found₂ : cells'[cell₂]? = some c₂) (homes : home' cell₁ = home' cell₂)
    (names : c₁.name = c₂.name) : cell₁ = cell₂ := by
  rcases writes.cells cell₁ c₁ found₁ with ⟨rfl, home₁, rfl⟩ | ⟨same₁, before₁, other₁⟩
  · rcases writes.cells cell₂ c₂ found₂ with ⟨rfl, _, _⟩ | ⟨same₂, _, other₂⟩
    · rfl
    · exact absurd names.symm (other₂ (same₂.symm.trans (homes.symm.trans home₁)))
  · rcases writes.cells cell₂ c₂ found₂ with ⟨rfl, home₂, rfl⟩ | ⟨same₂, before₂, _⟩
    · exact absurd names (other₁ (same₁.symm.trans (homes.trans home₂)))
    · exact matched.apart cell₁ cell₂ c₁ c₂ before₁ before₂ (same₁.symm.trans (homes.trans same₂)) names

/-- A memory goes on to match when one of its variables was written and the innermost frame plays on. -/
theorem Matches.writes (matched : m.Matches home a) {target : CellId}
    (writes : Writes m.cells m'.cells home home' j name value target) {js : List Nat}
    (opened : a.opened key = j :: js) (active : a.activations[j]? = some activation) (named : name ≠ "")
    (others : ∀ key', key' ≠ key → m'.stack key' = m.stack key')
    (arena : (m'.stack key).height ≤ (m'.stack key).slots.size) (frames : (m.stack key).toList = frame :: rest)
    {frame' : Frame Code} (frames' : (m'.stack key).toList = frame' :: rest)
    (plays : Plays m'.cells home' (a.call key (.track name value)) frame' j) :
    m'.Matches home' (a.call key (.track name value)) where
  sound := matched.sound.call _ _
  arena key' := by
    by_cases own : key' = key
    · exact own ▸ arena
    · exact others key' own ▸ matched.arena key'
  frames key' := by
    rw [Account.opened_track]
    by_cases own : key' = key
    · subst own
      rw [frames', opened]
      exact .cons plays (matched.below writes.stay frames opened _)
    · rw [others key' own]
      exact matched.others writes.stay own _
  contents _ _ found := matched.contents_writes writes opened active named found
  apart _ _ _ _ found₁ found₂ := matched.apart_writes writes found₁ found₂

theorem cells_write (m : Memory Code) (cell cell' : CellId) (value : Object Code) :
    (m.write cell value).cells[cell']? =
      (m.cells[cell']?).map fun c => if cell = cell' then { c with content := value } else c := by
  rw [Memory.write, Array.getElem?_modify]
  split <;> simp [*]

/-- A write to a cell of a variable. -/
theorem Matches.writes_known (matched : m.Matches home a) (at_home : home cell = j) {c : Cell Code}
    (holds : m.cells[cell]? = some c) (same : c.name = name) (value : Object Code) :
    Writes m.cells (m.write cell value).cells home home j name value cell where
  stay cell' c' found := by
    refine ⟨rfl, _, (cells_write m cell cell' value).trans (congrArg _ found), ?_⟩
    dsimp only
    split <;> rfl
  cells cell' c' found := by
    obtain ⟨before, held, rfl⟩ := Option.map_eq_some_iff.mp ((cells_write m cell cell' value).symm.trans found)
    by_cases own : cell = cell'
    · subst own
      obtain rfl := Option.some.inj (holds.symm.trans held)
      rw [if_pos rfl, ← same]
      exact .inl ⟨rfl, at_home, rfl⟩
    · rw [if_neg own]
      -- Another cell of the activation is another variable.
      refine .inr ⟨rfl, held, fun at_home' same' => own ?_⟩
      exact matched.apart cell cell' c before holds held (at_home.trans at_home'.symm) (same.trans same'.symm)

/-- A new cell for a variable under whose name nothing was written to the activation. -/
theorem Matches.writes_new (matched : m.Matches home a) (active : a.activations[j]? = some activation)
    (unwritten : name ∉ activation.names) (value : Object Code) :
    Writes m.cells (m.cells.push ⟨name, value⟩) home (Function.update home m.cells.size j) j name value
      m.cells.size where
  stay cell c found := by
    have ne : cell ≠ m.cells.size := Nat.ne_of_lt (Array.getElem?_eq_some_iff.mp found).1
    refine ⟨Function.update_of_ne ne _ _, c, ?_, rfl⟩
    rw [Array.getElem?_push, if_neg ne, found]
  cells cell c found := by
    rw [Array.getElem?_push] at found
    split at found
    case isTrue last =>
      subst last
      exact .inl ⟨rfl, Function.update_self _ _ _, (Option.some.inj found).symm⟩
    case isFalse ne =>
      refine .inr ⟨Function.update_of_ne ne _ _, found, ?_⟩
      rintro here rfl
      obtain ⟨held, at_home, holds⟩ := matched.contents cell c found
      rw [here] at at_home
      obtain rfl := Option.some.inj (active.symm.trans at_home)
      exact unwritten (Activation.mem_names.mpr ⟨_, holds⟩)

section
variable (matched : m.Matches home a) (frames : (m.stack key).toList = frame :: rest) (named : name ≠ "")
include matched frames named

/-- A write to a variable of the innermost frame. -/
theorem Matches.write (found : frame.vars.get? name = some cell) :
    Stay m.cells (m.write cell value).cells home home ∧
      (m.write cell value).Matches home (a.call key (.track name value)) := by
  obtain ⟨j, js, opened, activation, active, owner, method, names, belong⟩ := matched.top frames
  have inside := OrderedMap.find_mem found
  obtain ⟨at_home, c, holds, same⟩ := belong _ inside
  have known : name ∈ activation.names := names ▸ List.mem_map_of_mem (f := Prod.fst) inside
  have writes := matched.writes_known at_home holds same value
  refine ⟨writes.stay, matched.writes writes opened active named (fun _ _ => rfl) (matched.arena key) frames frames ?_⟩
  refine Plays.call ⟨activation, active, owner, method, names, belong⟩ writes.stay ?_
  intro _ _ active'
  obtain rfl := Option.some.inj (active.symm.trans active')
  rw [FrameCall.written, if_neg named, Activation.names_write, if_pos known]

/-- A write to a new variable of the innermost frame. Its cell is at home in the activation. -/
theorem Matches.extend (unknown : frame.vars.get? name = none) :
    let m' := (m.newCell name value).2.setStack key
      ((m.stack key).setTop { frame with vars := frame.vars.insert name m.cells.size })
    ∃ home', Stay m.cells m'.cells home home' ∧ m'.Matches home' (a.call key (.track name value)) := by
  intro m'
  obtain ⟨j, js, opened, activation, active, owner, method, names, belong⟩ := matched.top frames
  have unwritten : name ∉ activation.names := names ▸ OrderedMap.find_none unknown
  have writes := matched.writes_new active unwritten value
  obtain ⟨toList, arena⟩ := CallStack.setTop_toList (matched.arena key) frames
    { frame with vars := frame.vars.insert name m.cells.size }
  have stack : m'.stack key = _ := stack_setStack
  rw [← stack] at toList arena
  refine ⟨_, writes.stay, matched.writes writes opened active named ?_ arena frames toList ?_⟩
  · intro key' ne
    exact stack_setStack_of_ne ne
  · have entries : (frame.vars.insert name m.cells.size).entries = frame.vars.entries ++ [(name, m.cells.size)] :=
      OrderedMap.write_new (OrderedMap.find_none unknown)
    refine ⟨_, Account.active_track opened active named value, owner, method, ?_, ?_⟩
    · rw [Activation.names_write, if_neg unwritten, ← names, OrderedMap.keys, entries, List.map_append]
      rfl
    · intro e member
      rw [entries, List.mem_append, List.mem_singleton] at member
      rcases member with member | rfl
      · exact belong.stay writes.stay e member
      · exact ⟨Function.update_self _ _ _, ⟨name, value⟩, Array.getElem?_push_size, rfl⟩

end

/-! ## Answers -/

/-- How a call is answered that is refused for a reason, or for none. What is refused changes nothing. -/
def Answered (m : Memory Code) (key : TrackerId × Thread) (c : FrameCall Code) : Option Fault → Prop
  | some f => m.call key c = (.error f, m)
  | none => (m.call key c).1 = .ok ()

theorem Matches.opened_nil (matched : m.Matches home a) (frames : (m.stack key).toList = []) :
    a.opened key = [] ∧ a.frames key = [] := by
  have all := matched.frames key
  rw [frames, List.forall₂_nil_left_iff] at all
  exact ⟨all, by simp [Account.frames, all]⟩

theorem Matches.frames_isEmpty (matched : m.Matches home a) (frames : (m.stack key).toList = frame :: rest) :
    (a.frames key).isEmpty = false := by
  obtain ⟨j, js, opened, _⟩ := matched.top frames
  obtain ⟨activation, _, frames⟩ := matched.sound.frames_cons opened
  rw [frames]
  rfl

/-- A write is answered as on a plain stack, and the memory goes on to match the account. -/
theorem Matches.track (matched : m.Matches home a) (key : TrackerId × Thread) (name : String) (value : Object Code) :
    m.Answered key (.track name value) ((FrameCall.track name value).refusal? (a.frames key)) ∧
      ∃ home', Stay m.cells (m.track key name value).2.cells home home' ∧
        (m.track key name value).2.Matches home' (a.call key (.track name value)) := by
  by_cases named : name = ""
  · subst named
    have refused : m.track key "" value = (.error .emptyVariable, m) := if_pos rfl
    rw [refused, Account.call_track_unnamed]
    exact ⟨refused, home, .refl _ _, matched⟩
  · rw [FrameCall.refusal?, if_neg named]
    have top := CallStack.top?_eq (matched.arena key)
    cases frames : (m.stack key).toList with
    | nil =>
      obtain ⟨opened, none⟩ := matched.opened_nil frames
      have refused : m.track key name value = (.error (.noFrameFor name), m) := by
        simp [Memory.track, named, top, frames]
      rw [none, refused, Account.call_track_nil opened]
      exact ⟨refused, home, .refl _ _, matched⟩
    | cons frame rest =>
      rw [matched.frames_isEmpty frames]
      cases found : frame.vars.get? name with
      | some cell =>
        have written : m.track key name value = (.ok (), m.write cell value) := by
          simp [Memory.track, named, top, frames, found]
        rw [written]
        exact ⟨congrArg Prod.fst written, home, matched.write frames named found⟩
      | none =>
        have extended : m.track key name value = (.ok (), (m.newCell name value).2.setStack key
            ((m.stack key).setTop { frame with vars := frame.vars.insert name m.cells.size })) := by
          simp [Memory.track, named, top, frames, found, newCell]
        rw [extended]
        exact ⟨congrArg Prod.fst extended, matched.extend frames named found⟩

/-- Any call is answered as on a plain stack, and the memory goes on to match the account. -/
theorem Matches.call (matched : m.Matches home a) (key : TrackerId × Thread) (c : FrameCall Code) :
    m.Answered key c (c.refusal? (a.frames key)) ∧
      ∃ home', Stay m.cells (m.call key c).2.cells home home' ∧ (m.call key c).2.Matches home' (a.call key c) := by
  cases c with
  | openFrame owner method =>
    obtain ⟨m', opens, cells, matched'⟩ := matched.openFrame key owner method
    have call : m.call key (.openFrame owner method) = (.ok (), m') := opens
    rw [call]
    exact ⟨congrArg Prod.fst call, home, cells ▸ .refl _ _, matched'⟩
  | closeFrame =>
    cases frames : (m.stack key).toList with
    | nil =>
      obtain ⟨opened, none⟩ := matched.opened_nil frames
      have call : m.call key .closeFrame = (.error .scopeUnderflow, m) := by
        simp [Memory.call, Memory.closeFrame, CallStack.pop_nil frames (matched.arena key), stackFault]
      rw [call, none, Account.call_closeFrame_nil opened]
      exact ⟨call, home, .refl _ _, matched⟩
    | cons frame rest =>
      obtain ⟨m', closes, cells, matched'⟩ := matched.closeFrame frames
      have call : m.call key .closeFrame = (.ok (), m') := closes
      rw [call, FrameCall.refusal?, matched.frames_isEmpty frames]
      exact ⟨congrArg Prod.fst call, home, cells ▸ .refl _ _, matched'⟩
  | track name value => exact matched.track key name value

theorem Matches.after (matched : m.Matches home a) (calls : FrameCalls Code) :
    ∃ home', Stay m.cells (m.after calls).cells home home' ∧ (m.after calls).Matches home' (a.after calls) := by
  induction calls generalizing m home a with
  | nil => exact ⟨home, .refl _ _, matched⟩
  | cons c calls ih =>
    obtain ⟨_, home₁, stay, matched₁⟩ := matched.call c.1 c.2
    obtain ⟨home₂, later, matched₂⟩ := ih matched₁
    exact ⟨home₂, stay.trans later, matched₂⟩

theorem matches_empty : (empty : Memory Code).Matches (fun _ => 0) .empty where
  sound := Account.sound_empty
  arena _ := Nat.le_refl 0
  frames _ := .nil
  contents _ _ found := nomatch found
  apart _ _ _ _ found := nomatch found

/-! ## Views -/

/-- The view is one of activation `j`. -/
def Watches (cells : Array (Cell Code)) (home : CellId → Nat) (a : Account Code) (v : View Code) (j : Nat) : Prop :=
  ∃ activation, a.activations[j]? = some activation ∧ v.owner = activation.owner ∧ v.method = activation.method ∧
    Belong cells home j v.vars.entries

variable {v : View Code}

theorem Plays.watches (plays : Plays cells home a frame j) : Watches cells home a frame.view j := by
  obtain ⟨activation, active, owner, method, _, belong⟩ := plays
  exact ⟨activation, active, owner, congrArg (·.getD "") method, belong⟩

theorem Watches.after (watches : Watches cells home a v j) (stay : Stay cells cells' home home')
    (calls : FrameCalls Code) : Watches cells' home' (a.after calls) v j := by
  obtain ⟨activation, active, owner, method, belong⟩ := watches
  obtain ⟨now, later, owner', method'⟩ := Account.activation_after active calls
  exact ⟨now, later, owner.trans owner'.symm, method.trans method'.symm, belong.stay stay⟩

/-- Each variable of a view holds what was last written to it in the activation. -/
theorem Matches.last? (matched : m.Matches home a) (belong : Belong m.cells home j vars)
    (active : a.activations[j]? = some activation) {e : String × CellId} (member : e ∈ vars) :
    ∃ value, activation.last? e.1 = some value ∧ m.cells[e.2]?.map (fun c => (e.1, c.content)) = some (e.1, value) := by
  obtain ⟨at_home, c, found, named⟩ := belong e member
  obtain ⟨other, active', holds⟩ := matched.contents e.2 c found
  rw [at_home, active] at active'
  obtain rfl := Option.some.inj active'
  exact ⟨c.content, named ▸ holds, by rw [found, Option.map_some]⟩

/-- A view shows its activation as it is now, to someone who knows the names of the view. -/
theorem Matches.picture (matched : m.Matches home a) (watches : Watches m.cells home a v j) :
    ∃ now, a.activations[j]? = some now ∧ m.picture v = now.seen v.vars.keys ∧
      (m.picture v).vars.map Prod.fst = v.vars.keys := by
  obtain ⟨now, active, owner, method, belong⟩ := watches
  have shown : m.picture v = now.seen v.vars.keys := by
    rw [Memory.picture, Activation.seen, owner, method, OrderedMap.keys, List.filterMap_map]
    congr 1
    refine List.filterMap_congr ?_
    intro e member
    obtain ⟨value, last, holds⟩ := matched.last? belong active member
    rw [holds, Function.comp_apply, last, Option.map_some]
  refine ⟨now, active, shown, shown ▸ Activation.names_seen ?_⟩
  intro name known
  obtain ⟨e, member, rfl⟩ := List.mem_map.mp known
  obtain ⟨value, last, _⟩ := matched.last? belong active member
  exact ⟨value, last⟩

/-- Each frame of a plain stack is seen as a view of the same variables. -/
theorem Matches.shown (matched : m.Matches home a) (key : TrackerId × Thread) :
    List.Forall₂ (fun v activation => v.vars.keys = activation.names ∧ m.picture v = activation.picture)
      (m.views key) (a.frames key) := by
  rw [views, List.forall₂_map_left_iff]
  refine forall₂_filterMap (matched.frames key) ?_
  intro frame j plays
  obtain ⟨now, active, picture, _⟩ := matched.picture plays.watches
  obtain ⟨activation, active', _, _, names, _⟩ := plays
  obtain rfl := Option.some.inj (active.symm.trans active')
  exact ⟨now, active, names, picture.trans (congrArg now.seen names)⟩

/-- After any calls, succeeding or refused and on any stacks, what is seen of a stack are the frames of
    a plain stack on which its own calls were made, and the next call is answered as there. -/
theorem refines_plain_stack (calls : FrameCalls Code) (key : TrackerId × Thread) :
    let m := (empty : Memory Code).after calls
    let frames := framesOn key calls
    (m.views key).map (·.vars.keys) = frames.map Activation.names ∧
      m.pictures key = frames.map Activation.picture ∧
      m.current? key = (m.views key).head? ∧
      m.depth key = frames.length ∧
      (m.isEmpty key = true ↔ frames = []) ∧
      ∀ c : FrameCall Code, m.Answered key c (c.refusal? frames) := by
  intro m frames
  obtain ⟨home, _, matched⟩ := matches_empty.after calls
  have plain : (Account.empty.after calls).frames key = frames := Account.frames_ofCalls key calls
  have shown := plain ▸ matched.shown key
  have length : m.depth key = frames.length := by
    rw [← shown.length_eq, views, List.length_map, CallStack.length_toList (matched.arena key)]
    rfl
  refine ⟨?_, ?_, ?_, length, ?_, ?_⟩
  · exact map_eq_map_of_forall₂ (shown.imp fun _ _ same => same.1)
  · exact map_eq_map_of_forall₂ (shown.imp fun _ _ same => same.2)
  · rw [current?, CallStack.top?_eq (matched.arena key), views, List.head?_map]
  · rw [← List.length_eq_zero_iff, ← length]
    exact beq_iff_eq
  · intro c
    exact plain ▸ (matched.call key c).1

/-- A view shows the same while its activation is the same. -/
theorem Matches.picture_congr (matched : m.Matches home a) (watches : Watches m.cells home a v j)
    (matched' : m'.Matches home' a') (watches' : Watches m'.cells home' a' v j)
    (same : a'.activations[j]? = a.activations[j]?) : m'.picture v = m.picture v := by
  obtain ⟨now, active, shown, _⟩ := matched.picture watches
  obtain ⟨now', active', shown', _⟩ := matched'.picture watches'
  obtain rfl := Option.some.inj (active.symm.trans (same.symm.trans active'))
  exact shown'.trans shown.symm

/-- A view shows what is written to a variable that it knows. -/
theorem Matches.mem_picture_track (matched : m.Matches home a) (watches : Watches m.cells home a v j)
    (top : (a.opened key).head? = some j) (named : name ≠ "") (known : name ∈ v.vars.keys) (value : Object Code) :
    (name, value) ∈ ((m.call key (.track name value)).2.picture v).vars := by
  obtain ⟨js, opened⟩ := List.head?_eq_some_iff.mp top
  obtain ⟨_, home', stay, matched'⟩ := matched.call key (.track name value)
  obtain ⟨activation, active, _⟩ := matched.picture watches
  obtain ⟨now, active', shown, _⟩ := matched'.picture (watches.after stay [(key, .track name value)])
  have written := Account.active_track opened active named value
  obtain rfl := Option.some.inj (written.symm.trans active')
  rw [shown]
  exact List.mem_filterMap.mpr ⟨name, known, by rw [Activation.last?_write_self, Option.map_some]⟩

/-- A view goes on to show the activation that it was taken of, whatever happens to its slot: what was last
    written there to each variable that it knows. Only calls on this activation while it is the innermost
    one change what is seen, and none after it was closed. -/
theorem views_stay_with_activation (before : FrameCalls Code) (key : TrackerId × Thread) (i : Nat) (v : View Code)
    (seen : (((empty : Memory Code).after before).views key)[i]? = some v ∨
      i = 0 ∧ ((empty : Memory Code).after before).current? key = some v) :
    ∃ j activation, ((Account.empty.after before).opened key)[i]? = some j ∧
      (Account.empty.after before).activations[j]? = some activation ∧
      v.owner = activation.owner ∧ v.method = activation.method ∧ v.vars.keys = activation.names ∧
      ∀ later : FrameCalls Code,
        let m := ((empty : Memory Code).after before).after later
        let a := (Account.empty.after before).after later
        (∃ now, a.activations[j]? = some now ∧ m.picture v = now.seen v.vars.keys ∧
          (m.picture v).vars.map Prod.fst = v.vars.keys) ∧
        ((a.opened key).head? = some j → ∀ name ∈ v.vars.keys, ∀ value,
          (name, value) ∈ ((m.call key (.track name value)).2.picture v).vars) ∧
        (∀ key' c, (key' = key → (a.opened key).head? ≠ some j) → (m.call key' c).2.picture v = m.picture v) ∧
        (j ∉ a.opened key → ∀ rest, (m.after rest).picture v = m.picture v) := by
  obtain ⟨home, _, matched⟩ := matches_empty.after before
  have seen : (((empty : Memory Code).after before).views key)[i]? = some v := by
    rcases seen with seen | ⟨rfl, seen⟩
    · exact seen
    · rwa [current?, CallStack.top?_eq (matched.arena key), ← List.head?_map, List.head?_eq_getElem?] at seen
  rw [views, List.getElem?_map, Option.map_eq_some_iff] at seen
  obtain ⟨frame, slot, rfl⟩ := seen
  obtain ⟨j, opened, plays⟩ := exists_of_forall₂ (matched.frames key) slot
  have watches := plays.watches
  obtain ⟨activation, active, owner, method, names, _⟩ := plays
  have valid : j < (Account.empty.after before).activations.length := (List.getElem?_eq_some_iff.mp active).1
  refine ⟨j, activation, opened, active, owner, congrArg (·.getD "") method, names, ?_⟩
  intro later m a
  obtain ⟨home', stay, matched'⟩ := matched.after later
  have watches' := watches.after stay later
  have valid' : j < a.activations.length := Account.valid_after valid later
  -- The activation is open on the stack it was opened on, and on no other.
  have only : ∀ key', j ∈ a.opened key' → key' = key := by
    intro key' member
    exact matched.sound.apart key' key j (Account.mem_opened_after valid member) (List.mem_of_getElem? opened)
  refine ⟨matched'.picture watches', ?_, ?_, ?_⟩
  · intro top name known value
    have named : name ≠ "" := by
      rintro rfl
      exact matched.sound.named activation (List.mem_of_getElem? active) (names ▸ known)
    exact matched'.mem_picture_track watches' top named known value
  · intro key' c elsewhere
    have other : (a.opened key').head? ≠ some j := by
      intro top
      have same := only key' (List.mem_of_head? top)
      exact elsewhere same (same ▸ top)
    obtain ⟨_, home'', stay', matched''⟩ := matched'.call key' c
    exact matched'.picture_congr watches' matched'' (watches'.after stay' [(key', c)])
      (Account.activations_call_of_ne valid' other c)
  · intro closed rest
    obtain ⟨home'', stay', matched''⟩ := matched'.after rest
    refine matched'.picture_congr watches' matched'' (watches'.after stay' rest) ?_
    refine Account.activations_after_closed valid' ?_ rest
    intro key' member
    exact closed (only key' member ▸ member)

/-- A view of a frame that is written once more and closed. What is written to the frame that takes its
    slot does not show. -/
theorem views_stay_with_activation_sample :
    let key : TrackerId × Thread := (.named "tracker", "main")
    let first : Object Unit := ⟨0, .text "one"⟩
    let second : Object Unit := ⟨1, .text "two"⟩
    let third : Object Unit := ⟨2, .text "three"⟩
    let later : FrameCalls Unit := [(key, .track "x" second), (key, .closeFrame), (key, .openFrame none "other"),
      (key, .track "x" third)]
    let m := (empty : Memory Unit).after [(key, .openFrame none "outer"), (key, .track "x" first)]
    let v : View Unit := ⟨none, "outer", OrderedMap.empty.insert "x" 0⟩
    (m.views key)[0]? = some v ∧ ((m.after later).picture v).vars = [("x", second)] := by
  intro key first second third later m v
  have seen : (m.views key)[0]? = some v := rfl
  obtain ⟨j, _, opened, _, _, _, _, stays⟩ := views_stay_with_activation _ key 0 v (.inl seen)
  obtain rfl : 0 = j := Option.some.inj opened
  obtain ⟨⟨now, active, shown, _⟩, _⟩ := stays later
  obtain rfl : ⟨none, "outer", [("x", first), ("x", second)]⟩ = now := Option.some.inj active
  exact ⟨seen, congrArg Picture.vars shown⟩

end Memory

end FaultSnapshot
