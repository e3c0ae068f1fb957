import FaultSnapshot.Proofs.Frames
import Mathlib.Order.Bounds.Basic

/-!
# The arena of a stack of frames

A stack is used by pushes, pops and writes to its top slot. After any of them the arena has just the
slots that the highest stack so far needed, and all slots above the stack hold nothing
(`CallStack.arena_fits`). So no push is refused, none finds a slot in use, and a pop hands back what its
frame held. The stacks of trackers are used in no other way (`Memory.Made.stack_after`).
-/

namespace FaultSnapshot

variable {α Code : Type}

/-! ## Calls on one stack -/

/-- A call on one stack: a frame is opened, or the innermost one is closed or changed in its slot. -/
inductive StackCall (Code : Type)
  | push (owner : Option (Object Code)) (method : String)
  | pop
  | write (change : Frame Code → Frame Code)

namespace StackCall

/-- What the call makes of the stack. A call that is refused leaves it as it is. -/
def perform : StackCall Code → CallStack (Frame Code) → CallStack (Frame Code)
  | push owner method, s =>
    match s.push (.opened owner method) with
    | .ok s' => s'
    | .error _ => s
  | pop, s =>
    match s.pop .cleared with
    | .ok (_, s') => s'
    | .error _ => s
  | write change, s =>
    match s.top? with
    | some f => s.setTop (change f)
    | none => s

/-- What the call makes of a plain list of open frames, the innermost first. -/
def onto : StackCall Code → List (Frame Code) → List (Frame Code)
  | push owner method, frames => .opened owner method :: frames
  | pop, frames => frames.tail
  | write change, frames => frames.modifyHead change

end StackCall

namespace CallStack

/-- The stack after calls in order, from the one without slots. -/
def after (calls : List (StackCall Code)) : CallStack (Frame Code) := calls.foldl (fun s c => c.perform s) empty

/-- The frames that are open after calls in order, the innermost first. -/
def framesAfter (calls : List (StackCall Code)) : List (Frame Code) := calls.foldl (fun frames c => c.onto frames) []

/-- The heights that the stack had at the start and after each of the calls. -/
def heights (calls : List (StackCall Code)) : Set Nat := {n | ∃ earlier, earlier <+: calls ∧ (after earlier).height = n}

variable {calls : List (StackCall Code)} {c : StackCall Code}

@[simp] theorem after_concat : after (calls ++ [c]) = c.perform (after calls) := by
  simp [after]

@[simp] theorem framesAfter_concat : framesAfter (calls ++ [c]) = c.onto (framesAfter calls) := by
  simp [framesAfter]

theorem heights_concat : heights (calls ++ [c]) = insert (after (calls ++ [c])).height (heights calls) := by
  ext n
  simp only [heights, List.prefix_concat_iff, Set.mem_ofPred_eq, Set.mem_insert_iff, or_and_right, exists_or,
    exists_eq_left]
  exact or_congr_left eq_comm

/-! ## Slots -/

variable {s s' : CallStack α} {a b cleared : α}

/-- A push fills the slot above the stack, and there is a new slot only where the arena ended. -/
theorem slots_of_push (pushed : s.push a = .ok s') :
    s'.height = s.height + 1 ∧ s'.slots.size = max s'.height s.slots.size ∧ s'.slots[s.height]? = some a ∧
      ∀ i, i ≠ s.height → s'.slots[i]? = s.slots[i]? := by
  unfold push at pushed
  split at pushed
  · rename_i room
    obtain rfl := Except.ok.inj pushed
    refine ⟨rfl, ?_, by simp [room], ?_⟩
    · simp only [Array.size_set]
      omega
    · intro i ne
      simp [Ne.symm ne]
  · split at pushed
    · rename_i full
      obtain rfl := Except.ok.inj pushed
      refine ⟨rfl, ?_, by simp [full], ?_⟩
      · simp only [Array.size_push]
        omega
      · intro i ne
        simp [Array.getElem?_push, ← full, ne]
    · cases pushed

/-- A pop clears the slot of the frame that it hands back. -/
theorem slots_of_pop (popped : s.pop cleared = .ok (a, s')) :
    s.height = s'.height + 1 ∧ s'.slots.size = s.slots.size ∧ s'.slots[s'.height]? = some cleared ∧
      ∀ i, i ≠ s'.height → s'.slots[i]? = s.slots[i]? := by
  obtain ⟨slots, height⟩ := s
  cases height with
  | zero => cases popped
  | succ top =>
    simp only [pop] at popped
    split at popped
    · rename_i inside
      obtain ⟨rfl, rfl⟩ := Prod.mk.inj (Except.ok.inj popped)
      refine ⟨rfl, by simp, by simp [inside], ?_⟩
      intro i ne
      simp [Ne.symm ne]
    · cases popped

/-- A write to the top slot leaves those above the stack. -/
theorem slots_setTop (s : CallStack α) (a : α) :
    (s.setTop a).height = s.height ∧ (s.setTop a).slots.size = s.slots.size ∧
      ∀ i, s.height ≤ i → (s.setTop a).slots[i]? = s.slots[i]? := by
  obtain ⟨slots, height⟩ := s
  cases height with
  | zero => exact ⟨rfl, rfl, fun _ _ => rfl⟩
  | succ top =>
    refine ⟨rfl, by simp [setTop], ?_⟩
    intro i above
    have ne : top ≠ i := Nat.ne_of_lt above
    simp [setTop, ne]

/-! ## The invariant -/

/-- After the calls the stack is the plain list of open frames, its arena has the slots that the highest
    stack so far needed, and those above the stack are cleared. -/
structure Fits (calls : List (StackCall Code)) : Prop where
  frames : (after calls).toList = framesAfter calls
  arena : (after calls).height ≤ (after calls).slots.size
  greatest : IsGreatest (heights calls) (after calls).slots.size
  spare : ∀ i f, (after calls).height ≤ i → (after calls).slots[i]? = some f → f = .cleared

theorem fits_nil : Fits ([] : List (StackCall Code)) where
  frames := rfl
  arena := Nat.le_refl 0
  greatest := by
    refine ⟨⟨[], List.prefix_refl _, rfl⟩, ?_⟩
    rintro n ⟨earlier, start, rfl⟩
    obtain rfl := List.prefix_nil.mp start
    exact Nat.le_refl 0
  spare i f _ found := by simp [after, empty] at found

/-- A call leaves a stack that fits if its arena grows with the height only and no slot above it is used. -/
theorem Fits.concat (fits : Fits calls) {s' : CallStack (Frame Code)} (performed : c.perform (after calls) = s')
    (frames : s'.toList = c.onto (framesAfter calls)) (arena : s'.height ≤ s'.slots.size)
    (grows : s'.slots.size = max s'.height (after calls).slots.size)
    (spare : ∀ i f, s'.height ≤ i → s'.slots[i]? = some f → f = .cleared) : Fits (calls ++ [c]) where
  frames := by rw [after_concat, performed, frames, framesAfter_concat]
  arena := by rwa [after_concat, performed]
  greatest := by
    rw [heights_concat, after_concat, performed, grows]
    exact fits.greatest.insert _
  spare := by rwa [after_concat, performed]

/-- A call that is refused leaves a stack that fits. -/
theorem Fits.refused (fits : Fits calls) (performed : c.perform (after calls) = after calls)
    (frames : c.onto (framesAfter calls) = framesAfter calls) : Fits (calls ++ [c]) :=
  fits.concat performed (fits.frames.trans frames.symm) fits.arena (Nat.max_eq_right fits.arena).symm fits.spare

theorem Fits.push (fits : Fits calls) (owner : Option (Object Code)) (method : String) :
    Fits (calls ++ [.push owner method]) := by
  obtain ⟨s', pushed, toList, arena⟩ := push_toList fits.arena (.opened owner method)
  obtain ⟨height, size, _, others⟩ := slots_of_push pushed
  have performed : (StackCall.push owner method).perform (after calls) = s' := by simp only [StackCall.perform, pushed]
  refine fits.concat performed ?_ arena size ?_
  · rw [toList, fits.frames, StackCall.onto]
  · intro i f above found
    have ne : i ≠ (after calls).height := by omega
    exact fits.spare i f (by omega) (others i ne ▸ found)

theorem Fits.pop (fits : Fits calls) : Fits (calls ++ [.pop]) := by
  cases open? : framesAfter calls with
  | nil =>
    have refused := pop_nil (fits.frames.trans open?) fits.arena .cleared
    exact fits.refused (by simp only [StackCall.perform, refused]) (by rw [open?, StackCall.onto, List.tail_nil])
  | cons frame rest =>
    obtain ⟨s', popped, toList, arena⟩ := pop_toList fits.arena (fits.frames.trans open?) .cleared
    obtain ⟨height, size, emptied, others⟩ := slots_of_pop popped
    have performed : StackCall.pop.perform (after calls) = s' := by simp only [StackCall.perform, popped]
    refine fits.concat performed ?_ arena ?_ ?_
    · rw [toList, open?, StackCall.onto, List.tail_cons]
    · rw [size, Nat.max_eq_right (size ▸ arena)]
    · intro i f above found
      by_cases top : i = s'.height
      · rw [top, emptied] at found
        exact (Option.some.inj found).symm
      · exact fits.spare i f (by omega) (others i top ▸ found)

theorem Fits.write (fits : Fits calls) (change : Frame Code → Frame Code) : Fits (calls ++ [.write change]) := by
  have top := top?_eq fits.arena
  rw [fits.frames] at top
  cases open? : framesAfter calls with
  | nil =>
    exact fits.refused (by simp only [StackCall.perform, top, open?, List.head?_nil])
      (by rw [open?, StackCall.onto, List.modifyHead_nil])
  | cons frame rest =>
    obtain ⟨toList, arena⟩ := setTop_toList fits.arena (fits.frames.trans open?) (change frame)
    obtain ⟨height, size, others⟩ := slots_setTop (after calls) (change frame)
    have performed : (StackCall.write change).perform (after calls) = (after calls).setTop (change frame) := by
      simp only [StackCall.perform, top, open?, List.head?_cons]
    refine fits.concat performed ?_ arena ?_ ?_
    · rw [toList, open?, StackCall.onto, List.modifyHead_cons]
    · rw [size, height, Nat.max_eq_right fits.arena]
    · rw [height]
      intro i f above found
      exact fits.spare i f above (others i above ▸ found)

theorem fits (calls : List (StackCall Code)) : Fits calls := by
  induction calls using List.reverseRecOn with
  | nil => exact fits_nil
  | append_singleton calls c ih =>
    cases c with
    | push owner method => exact ih.push owner method
    | pop => exact ih.pop
    | write change => exact ih.write change

theorem Fits.length (fits : Fits calls) : (after calls).height = (framesAfter calls).length := by
  rw [← fits.frames, length_toList fits.arena]

/-- The slots above the stack hold nothing. -/
theorem Fits.nothing (fits : Fits calls) {i : Nat} {f : Frame Code} (above : (after calls).height ≤ i)
    (found : (after calls).slots[i]? = some f) : f.owner = none ∧ f.method = none ∧ f.vars = ∅ := by
  rw [fits.spare i f above found]
  exact ⟨rfl, rfl, rfl⟩

/-- A push to a height that was reached before makes no slot, any other push makes one. -/
theorem Fits.size_of_push (fits : Fits calls) {f : Frame Code} {s' : CallStack (Frame Code)}
    (pushed : (after calls).push f = .ok s') :
    ((∃ n ∈ heights calls, (after calls).height < n) → s'.slots.size = (after calls).slots.size) ∧
      ((∀ n ∈ heights calls, n ≤ (after calls).height) → s'.slots.size = (after calls).slots.size + 1) := by
  obtain ⟨height, size, _⟩ := slots_of_push pushed
  constructor
  · rintro ⟨n, reached, higher⟩
    have below := fits.greatest.2 reached
    omega
  · intro highest
    have full := highest _ fits.greatest.1
    have arena := fits.arena
    omega

/-- The top slot is in the arena, and a pop hands back what is in it. -/
theorem Fits.top_frame (fits : Fits calls) {frame : Frame Code} {rest : List (Frame Code)}
    (frames : framesAfter calls = frame :: rest) :
    (after calls).height - 1 < (after calls).slots.size ∧ (after calls).top? = some frame ∧
      ∃ s', (after calls).pop .cleared = .ok (frame, s') ∧ s'.toList = rest := by
  obtain ⟨s', popped, toList, _⟩ := pop_toList fits.arena (fits.frames.trans frames) .cleared
  refine ⟨?_, by rw [top?_eq fits.arena, fits.frames, frames, List.head?_cons], s', popped, toList⟩
  have length := fits.length
  have arena := fits.arena
  rw [frames, List.length_cons] at length
  omega

theorem Fits.no_frame (fits : Fits calls) (none : framesAfter calls = []) :
    (after calls).height = 0 ∧ (after calls).top? = .none ∧ (after calls).pop .cleared = .error .underflow := by
  refine ⟨?_, ?_, pop_nil (fits.frames.trans none) fits.arena .cleared⟩
  · rw [fits.length, none, List.length_nil]
  · rw [top?_eq fits.arena, fits.frames, none, List.head?_nil]

/-- After any pushes, pops and writes the stack is within its arena, which has as many slots as the
    greatest height so far, and the slots above the stack hold nothing. So its frames are those of a
    plain list; a push succeeds and uses a slot that holds nothing, a new one only where the stack was
    never as high; the top slot is in the arena, and a pop hands back the frame in it; without frames
    there is no top, and a pop is refused. -/
theorem arena_fits (calls : List (StackCall Code)) :
    let s := after calls
    s.height ≤ s.slots.size ∧ IsGreatest (heights calls) s.slots.size ∧
      (∀ i f, s.height ≤ i → s.slots[i]? = some f → f.owner = none ∧ f.method = none ∧ f.vars = ∅) ∧
      s.toList = framesAfter calls ∧ s.height = (framesAfter calls).length ∧
      (∀ owner method, ∃ s', s.push (.opened owner method) = .ok s' ∧
        (∀ f, s.slots[s.height]? = some f → f.owner = none ∧ f.vars = ∅) ∧
        (∀ i, i ≠ s.height → s'.slots[i]? = s.slots[i]?) ∧
        ((∃ n ∈ heights calls, s.height < n) → s'.slots.size = s.slots.size) ∧
        ((∀ n ∈ heights calls, n ≤ s.height) → s'.slots.size = s.slots.size + 1)) ∧
      (∀ frame rest, framesAfter calls = frame :: rest →
        s.height - 1 < s.slots.size ∧ s.top? = some frame ∧
          ∃ s', s.pop .cleared = .ok (frame, s') ∧ s'.toList = rest) ∧
      (framesAfter calls = [] → s.height = 0 ∧ s.top? = none ∧ s.pop .cleared = .error .underflow) := by
  intro s
  have fits : Fits calls := fits calls
  refine ⟨fits.arena, fits.greatest, fun i f => fits.nothing, fits.frames, fits.length, ?_,
    fun frame rest => fits.top_frame, fits.no_frame⟩
  intro owner method
  obtain ⟨s', pushed, _⟩ := push_toList fits.arena (.opened owner method)
  obtain ⟨_, _, _, others⟩ := slots_of_push pushed
  obtain ⟨again, new⟩ := fits.size_of_push pushed
  refine ⟨s', pushed, ?_, others, again, new⟩
  intro f found
  obtain ⟨owner, _, vars⟩ := fits.nothing (Nat.le_refl _) found
  exact ⟨owner, vars⟩

end CallStack

/-! ## Stacks in a memory -/

namespace Memory

variable {m m' : Memory Code}

/-- A stack stays as it is, or one call is made on it. -/
def Called (key : TrackerId × Thread) (m m' : Memory Code) : Prop :=
  m'.stack key = m.stack key ∨ ∃ c : StackCall Code, m'.stack key = c.perform (m.stack key)

theorem called_openFrame (m : Memory Code) (key key' : TrackerId × Thread) (owner : Option (Object Code))
    (method : String) : Called key m (m.openFrame key' owner method).2 := by
  unfold openFrame
  split
  · rename_i s pushed
    by_cases same : key = key'
    · subst same
      exact .inr ⟨.push owner method, by simp [StackCall.perform, pushed]⟩
    · exact .inl (stack_setStack_of_ne same)
  · exact .inl rfl

theorem called_closeFrame (m : Memory Code) (key key' : TrackerId × Thread) : Called key m (m.closeFrame key').2 := by
  unfold closeFrame
  split
  · rename_i f s popped
    by_cases same : key = key'
    · subst same
      exact .inr ⟨.pop, by simp [StackCall.perform, popped]⟩
    · exact .inl (stack_setStack_of_ne same)
  · exact .inl rfl

theorem called_track (m : Memory Code) (key key' : TrackerId × Thread) (name : String) (value : Object Code) :
    Called key m (m.track key' name value).2 := by
  unfold track
  split
  · exact .inl rfl
  · cases top : (m.stack key').top? with
    | none =>
      simp only [top]
      exact .inl rfl
    | some frame =>
      cases found : frame.vars.get? name with
      | some cell =>
        simp only [top, found]
        exact .inl rfl
      | none =>
        simp only [top, found]
        by_cases same : key = key'
        · subst same
          refine .inr ⟨.write fun f => { f with vars := f.vars.insert name m.cells.size }, ?_⟩
          rw [stack_setStack]
          simp only [StackCall.perform, top]
          rfl
        · exact .inl (stack_setStack_of_ne same)

/-- In a memory that was made by its operations, each stack was made by calls on it. -/
theorem Made.stack_after (made : m.Made) (key : TrackerId × Thread) :
    ∃ calls : List (StackCall Code), m.stack key = .after calls := by
  have later : ∀ {m m' : Memory Code}, Called key m m' → (∃ calls : List (StackCall Code), m.stack key = .after calls) →
      ∃ calls : List (StackCall Code), m'.stack key = .after calls := by
    rintro m m' (same | ⟨c, performed⟩) ⟨calls, before⟩
    · exact ⟨calls, same.trans before⟩
    · exact ⟨calls ++ [c], by rw [performed, before, CallStack.after_concat]⟩
  induction made with
  | empty => exact ⟨[], rfl⟩
  | newObject payload _ ih => exact ih
  | newRecord text number _ ih => exact ih
  | modifyRecord i f _ ih => exact ih
  | newCell name content _ ih => exact ih
  | write cell content _ ih => exact ih
  | openFrame key' owner method _ ih => exact later (called_openFrame _ key key' owner method) ih
  | closeFrame key' _ ih => exact later (called_closeFrame _ key key') ih
  | track key' name value _ ih => exact later (called_track _ key key' name value) ih

end Memory

end FaultSnapshot
