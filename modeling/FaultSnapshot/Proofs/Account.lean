import FaultSnapshot.Frames.Memory
import Mathlib.Data.List.Basic
import Mathlib.Data.List.Nodup
import Mathlib.Logic.Function.Basic

/-!
# Accounts of calls

What frames should show, said without slots and cells. An activation is one call of a method with
everything that was ever written to its variables. The frames of one stack are a plain list of
activations, on which only the calls of this stack work (`framesOn`). An account also keeps the
activations that are closed, so that each has its place for ever; its open ones are the plain lists
of all stacks (`Account.frames_ofCalls`).
-/

namespace FaultSnapshot

variable {Code : Type}

/-- A call on a stack of frames. -/
inductive FrameCall (Code : Type)
  | openFrame (owner : Option (Object Code)) (method : String)
  | closeFrame
  | track (name : String) (value : Object Code)

/-- Calls in order, each with the tracker and the thread on whose stack it is made. -/
abbrev FrameCalls (Code : Type) := List ((TrackerId × Thread) × FrameCall Code)

/-- A call of a method, and all that was written to its variables, in order. -/
structure Activation (Code : Type) where
  owner : Option (Object Code)
  method : String
  writes : List (String × Object Code)

/-! ## Activations -/

namespace Activation

/-- One more write to a variable. -/
def write (a : Activation Code) (name : String) (value : Object Code) : Activation Code :=
  { a with writes := a.writes ++ [(name, value)] }

/-- The names that were written, in the order of their first writes. -/
def names (a : Activation Code) : List String := (a.writes.map Prod.fst).eraseDups

/-- What was last written under a name. -/
def last? (a : Activation Code) (name : String) : Option (Object Code) :=
  (a.writes.filter (·.1 = name)).getLast?.map Prod.snd

/-- What is seen by someone who knows these names. -/
def seen (a : Activation Code) (names : List String) : Picture Code :=
  ⟨a.owner, a.method, names.filterMap fun name => (a.last? name).map (name, ·)⟩

/-- What is seen of all variables. -/
def picture (a : Activation Code) : Picture Code := a.seen a.names

variable {a : Activation Code} {name other : String} {value : Object Code}

theorem names_write : (a.write name value).names = if name ∈ a.names then a.names else a.names ++ [name] := by
  unfold names write
  rw [List.map_append, List.eraseDups_append]
  by_cases known : name ∈ a.writes.map Prod.fst
  · have nothing : [name].removeAll (a.writes.map Prod.fst) = [] := by
      rw [List.removeAll, List.filter_eq_nil_iff]
      simpa using known
    rw [List.map_singleton, nothing, if_pos (List.mem_eraseDups.mpr known)]
    exact List.append_nil _
  · have everything : [name].removeAll (a.writes.map Prod.fst) = [name] := by
      rw [List.removeAll, List.filter_eq_self]
      simpa using known
    rw [List.map_singleton, everything, if_neg fun member => known (List.mem_eraseDups.mp member)]
    rfl

theorem last?_write_self : (a.write name value).last? name = some value := by
  simp [last?, write]

theorem last?_write_of_ne (ne : other ≠ name) : (a.write name value).last? other = a.last? other := by
  simp [last?, write, Ne.symm ne]

/-- Something was written under the names of the variables, and under no others. -/
theorem mem_names : name ∈ a.names ↔ ∃ value, a.last? name = some value := by
  rw [← Option.isSome_iff_exists, last?, Option.isSome_map, List.getLast?_isSome, names, List.mem_eraseDups]
  simp [List.filter_eq_nil_iff]

/-- All known names are seen. -/
theorem names_seen {names : List String} (known : ∀ name ∈ names, ∃ value, a.last? name = some value) :
    (a.seen names).vars.map Prod.fst = names := by
  show (names.filterMap fun name => (a.last? name).map (name, ·)).map Prod.fst = names
  induction names with
  | nil => rfl
  | cons name names ih =>
    obtain ⟨value, last⟩ := known name List.mem_cons_self
    simp only [List.filterMap_cons, last, Option.map_some, List.map_cons]
    rw [ih fun name member => known name (List.mem_cons_of_mem _ member)]

end Activation

/-! ## Plain stacks -/

namespace FrameCall

/-- What the call writes to the innermost activation. -/
def written : FrameCall Code → Activation Code → Activation Code
  | track name value, a => if name = "" then a else a.write name value
  | _, a => a

/-- What the call makes of a plain stack, the innermost activation first. -/
def onto : FrameCall Code → List (Activation Code) → List (Activation Code)
  | openFrame owner method, frames => ⟨owner, method, []⟩ :: frames
  | closeFrame, frames => frames.tail
  | track name value, frames => frames.modifyHead (track name value).written

/-- Why a plain stack refuses the call, if it does. -/
def refusal? : FrameCall Code → List (Activation Code) → Option Fault
  | openFrame _ _, _ => none
  | closeFrame, frames => if frames.isEmpty then some .scopeUnderflow else none
  | track name _, frames =>
    if name = "" then some .emptyVariable else if frames.isEmpty then some (.noFrameFor name) else none

@[simp] theorem owner_written (c : FrameCall Code) (a : Activation Code) : (c.written a).owner = a.owner := by
  cases c with
  | track name value =>
    simp only [written]
    split <;> rfl
  | _ => rfl

@[simp] theorem method_written (c : FrameCall Code) (a : Activation Code) : (c.written a).method = a.method := by
  cases c with
  | track name value =>
    simp only [written]
    split <;> rfl
  | _ => rfl

end FrameCall

/-- The plain stack of a tracker on a thread, after the calls that are made on it. -/
def framesOn (key : TrackerId × Thread) (calls : FrameCalls Code) : List (Activation Code) :=
  ((calls.filter (·.1 = key)).map Prod.snd).foldl (fun frames c => c.onto frames) []

/-! ## Accounts -/

/-- All activations that ever were, in the order in which they were opened, and for each stack the
    places of its open ones, the innermost first. -/
structure Account (Code : Type) where
  activations : List (Activation Code)
  opened : TrackerId × Thread → List Nat

namespace Account

def empty : Account Code := ⟨[], fun _ => []⟩

/-- The account after one more call. -/
def call (a : Account Code) (key : TrackerId × Thread) : FrameCall Code → Account Code
  | .openFrame owner method =>
    ⟨a.activations ++ [⟨owner, method, []⟩], Function.update a.opened key (a.activations.length :: a.opened key)⟩
  | .closeFrame => { a with opened := Function.update a.opened key (a.opened key).tail }
  | .track name value =>
    match a.opened key with
    | [] => a
    | j :: _ => { a with activations := a.activations.modify j (FrameCall.track name value).written }

def after (a : Account Code) (calls : FrameCalls Code) : Account Code := calls.foldl (fun a c => a.call c.1 c.2) a

/-- The open activations of a stack, the innermost first. -/
def frames (a : Account Code) (key : TrackerId × Thread) : List (Activation Code) :=
  (a.opened key).filterMap (a.activations[·]?)

/-- Each open activation has its place and is open once. Variables have names. -/
structure Sound (a : Account Code) : Prop where
  valid : ∀ key, ∀ j ∈ a.opened key, j < a.activations.length
  nodup : ∀ key, (a.opened key).Nodup
  apart : ∀ key key' j, j ∈ a.opened key → j ∈ a.opened key' → key = key'
  named : ∀ activation ∈ a.activations, "" ∉ activation.names

variable {a : Account Code} {key key' : TrackerId × Thread} {j : Nat} {below : List Nat}

theorem sound_empty : (empty : Account Code).Sound where
  valid _ _ member := nomatch member
  nodup _ := List.nodup_nil
  apart _ _ _ member := nomatch member
  named _ member := nomatch member

theorem call_track_cons (top : a.opened key = j :: below) (name : String) (value : Object Code) :
    a.call key (.track name value) =
      { a with activations := a.activations.modify j (FrameCall.track name value).written } := by
  simp only [call, top]

theorem call_track_nil (none : a.opened key = []) (name : String) (value : Object Code) :
    a.call key (.track name value) = a := by
  simp only [call, none]

theorem call_track_unnamed (a : Account Code) (key : TrackerId × Thread) (value : Object Code) :
    a.call key (.track "" value) = a := by
  cases top : a.opened key with
  | nil => exact call_track_nil top "" value
  | cons j below =>
    rw [call_track_cons top]
    exact congrArg (fun activations => { a with activations }) (List.modify_id j a.activations)

theorem call_closeFrame_nil (none : a.opened key = []) : a.call key .closeFrame = a := by
  have same : Function.update a.opened key (a.opened key).tail = a.opened := by
    rw [none, List.tail_nil, ← none, Function.update_eq_self]
  rw [call, same]

theorem opened_track (name : String) (value : Object Code) : (a.call key (.track name value)).opened = a.opened := by
  cases top : a.opened key with
  | nil => rw [call_track_nil top]
  | cons j below => rw [call_track_cons top]

/-- What is open after a call was so before, or is opened by it. -/
theorem mem_opened_call {c : FrameCall Code} (member : j ∈ (a.call key c).opened key') :
    j ∈ a.opened key' ∨ key' = key ∧ j = a.activations.length ∧ j < (a.call key c).activations.length := by
  cases c with
  | openFrame owner method =>
    by_cases same : key' = key
    · subst same
      simp only [call, Function.update_self, List.mem_cons] at member
      rcases member with new | old
      · exact .inr ⟨rfl, new, by simp [call, new]⟩
      · exact .inl old
    · simp only [call, Function.update_of_ne same] at member
      exact .inl member
  | closeFrame =>
    by_cases same : key' = key
    · subst same
      simp only [call, Function.update_self] at member
      exact .inl (List.mem_of_mem_tail member)
    · simp only [call, Function.update_of_ne same] at member
      exact .inl member
  | track name value =>
    rw [opened_track] at member
    exact .inl member

theorem length_activations_call (a : Account Code) (key : TrackerId × Thread) (c : FrameCall Code) :
    a.activations.length ≤ (a.call key c).activations.length := by
  cases c with
  | openFrame owner method => simp [call]
  | closeFrame => exact Nat.le_refl _
  | track name value =>
    cases top : a.opened key with
    | nil => exact Nat.le_of_eq (congrArg (·.activations.length) (call_track_nil top name value).symm)
    | cons j below => simp [call_track_cons top]

/-- An activation changes only by what is written to it while it is the innermost one. -/
theorem activations_call (valid : j < a.activations.length) (key : TrackerId × Thread) (c : FrameCall Code) :
    (a.call key c).activations[j]? =
      a.activations[j]?.map fun activation =>
        if (a.opened key).head? = some j then c.written activation else activation := by
  cases c with
  | openFrame owner method =>
    simp [call, List.getElem?_append_left valid, FrameCall.written]
  | closeFrame => simp [call, FrameCall.written]
  | track name value =>
    cases top : a.opened key with
    | nil => simp [call_track_nil top]
    | cons i below =>
      rw [call_track_cons top, List.getElem?_modify]
      simp

theorem activations_call_of_ne (valid : j < a.activations.length) (other : (a.opened key).head? ≠ some j)
    (c : FrameCall Code) : (a.call key c).activations[j]? = a.activations[j]? := by
  simp [activations_call valid, other]

theorem valid_after (valid : j < a.activations.length) (calls : FrameCalls Code) :
    j < (a.after calls).activations.length := by
  induction calls generalizing a with
  | nil => exact valid
  | cons c calls ih => exact ih (Nat.lt_of_lt_of_le valid (length_activations_call a c.1 c.2))

/-- An activation keeps its place, its owner and its method. -/
theorem activation_after {activation : Activation Code} (active : a.activations[j]? = some activation)
    (calls : FrameCalls Code) : ∃ now, (a.after calls).activations[j]? = some now ∧
      now.owner = activation.owner ∧ now.method = activation.method := by
  induction calls generalizing a activation with
  | nil => exact ⟨activation, active, rfl, rfl⟩
  | cons c calls ih =>
    have one := activations_call (List.getElem?_eq_some_iff.mp active).1 c.1 c.2
    rw [active, Option.map_some] at one
    obtain ⟨now, later, owner, method⟩ := ih one
    refine ⟨now, later, owner.trans ?_, method.trans ?_⟩
    · split <;> simp
    · split <;> simp

/-- What is open after several calls was so before, or is opened by them. -/
theorem mem_opened_after (valid : j < a.activations.length) {calls : FrameCalls Code}
    (member : j ∈ (a.after calls).opened key) : j ∈ a.opened key := by
  induction calls generalizing a with
  | nil => exact member
  | cons c calls ih =>
    rcases mem_opened_call (ih (Nat.lt_of_lt_of_le valid (length_activations_call a c.1 c.2)) member) with
      old | ⟨_, new, _⟩
    · exact old
    · exact absurd new (Nat.ne_of_lt valid)

/-- Nothing is written to an activation that is closed. -/
theorem activations_after_closed (valid : j < a.activations.length) (closed : ∀ key, j ∉ a.opened key)
    (calls : FrameCalls Code) : (a.after calls).activations[j]? = a.activations[j]? := by
  induction calls generalizing a with
  | nil => rfl
  | cons c calls ih =>
    have one := activations_call_of_ne valid (fun top => closed c.1 (List.mem_of_head? top)) c.2
    refine (ih (Nat.lt_of_lt_of_le valid (length_activations_call a c.1 c.2)) ?_).trans one
    intro key member
    rcases mem_opened_call member with old | ⟨_, new, _⟩
    · exact closed key old
    · exact Nat.ne_of_lt valid new

/-- A write goes to the innermost activation. -/
theorem active_track {activation : Activation Code} {name : String} (top : a.opened key = j :: below)
    (active : a.activations[j]? = some activation) (named : name ≠ "") (value : Object Code) :
    (a.call key (.track name value)).activations[j]? = some (activation.write name value) := by
  rw [activations_call (List.getElem?_eq_some_iff.mp active).1, active, top]
  simp [FrameCall.written, named]

/-- A call finds the activations that were before it, and may open one more. -/
theorem activation_of_call {c : FrameCall Code} {activation : Activation Code}
    (member : activation ∈ (a.call key c).activations) :
    (∃ before ∈ a.activations, activation = before ∨ activation = c.written before) ∨ activation.writes = [] := by
  obtain ⟨j, found⟩ := List.mem_iff_getElem?.mp member
  by_cases valid : j < a.activations.length
  · rw [activations_call valid, List.getElem?_eq_getElem valid] at found
    refine .inl ⟨_, List.getElem_mem valid, ?_⟩
    rw [← Option.some.inj found]
    split
    · exact .inr rfl
    · exact .inl rfl
  · cases c with
    | openFrame owner method =>
      rw [call, List.getElem?_append_right (Nat.le_of_not_lt valid)] at found
      obtain rfl := List.mem_singleton.mp (List.mem_of_getElem? found)
      exact .inr rfl
    | closeFrame => exact absurd (List.getElem?_eq_some_iff.mp found).1 valid
    | track name value =>
      have inside := (List.getElem?_eq_some_iff.mp found).1
      cases top : a.opened key with
      | nil => exact absurd (call_track_nil top name value ▸ inside) valid
      | cons i below =>
        rw [call_track_cons top, List.length_modify] at inside
        exact absurd inside valid

theorem frames_congr {a' : Account Code} (opened : a'.opened key = a.opened key)
    (same : ∀ j ∈ a.opened key, a'.activations[j]? = a.activations[j]?) : a'.frames key = a.frames key := by
  rw [frames, frames, opened]
  exact List.filterMap_congr same

namespace Sound

theorem named_written {activation : Activation Code} (named : "" ∉ activation.names) (c : FrameCall Code) :
    "" ∉ (c.written activation).names := by
  cases c with
  | openFrame owner method => exact named
  | closeFrame => exact named
  | track name value =>
    simp only [FrameCall.written]
    split
    case isTrue _ => exact named
    case isFalse ne =>
      rw [Activation.names_write]
      split
      · exact named
      · simpa [named] using Ne.symm ne

theorem call (sound : a.Sound) (key : TrackerId × Thread) (c : FrameCall Code) : (a.call key c).Sound where
  valid key' j member := by
    rcases mem_opened_call member with old | ⟨_, _, inside⟩
    · exact Nat.lt_of_lt_of_le (sound.valid key' j old) (length_activations_call a key c)
    · exact inside
  nodup key' := by
    have nodup := sound.nodup key'
    cases c with
    | openFrame owner method =>
      by_cases same : key' = key
      · subst same
        simp only [Account.call, Function.update_self, List.nodup_cons]
        exact ⟨fun member => Nat.lt_irrefl _ (sound.valid key' _ member), nodup⟩
      · simpa only [Account.call, Function.update_of_ne same] using nodup
    | closeFrame =>
      by_cases same : key' = key
      · subst same
        simp only [Account.call, Function.update_self]
        exact nodup.tail
      · simpa only [Account.call, Function.update_of_ne same] using nodup
    | track name value => rwa [opened_track]
  apart key₁ key₂ j first second := by
    rcases mem_opened_call first with old | ⟨on, new, _⟩
    · rcases mem_opened_call second with old' | ⟨_, new, _⟩
      · exact sound.apart key₁ key₂ j old old'
      · exact absurd (sound.valid key₁ j old) (Nat.not_lt_of_le (Nat.le_of_eq new.symm))
    · rcases mem_opened_call second with old | ⟨on', _, _⟩
      · exact absurd (sound.valid key₂ j old) (Nat.not_lt_of_le (Nat.le_of_eq new.symm))
      · exact on.trans on'.symm
  named activation member := by
    rcases activation_of_call member with ⟨before, found, rfl | rfl⟩ | none
    · exact sound.named _ found
    · exact named_written (sound.named before found) c
    · simp [Activation.names, none]

theorem frames_cons (sound : a.Sound) (top : a.opened key = j :: below) :
    ∃ activation, a.activations[j]? = some activation ∧
      a.frames key = activation :: below.filterMap (a.activations[·]?) := by
  have valid : j < a.activations.length := sound.valid key j (top ▸ List.mem_cons_self)
  refine ⟨_, List.getElem?_eq_getElem valid, ?_⟩
  rw [frames, top, List.filterMap_cons_some (List.getElem?_eq_getElem valid)]

theorem frames_openFrame (sound : a.Sound) (owner : Option (Object Code)) (method : String) :
    (a.call key (.openFrame owner method)).frames key = ⟨owner, method, []⟩ :: a.frames key := by
  have old : ∀ j ∈ a.opened key, (a.activations ++ [⟨owner, method, []⟩])[j]? = a.activations[j]? := by
    intro j member
    exact List.getElem?_append_left (sound.valid key j member)
  have new : (a.activations ++ [⟨owner, method, []⟩])[a.activations.length]? = some ⟨owner, method, []⟩ := by simp
  simp only [frames, Account.call, Function.update_self]
  rw [List.filterMap_cons_some new, List.filterMap_congr old]

theorem frames_closeFrame (sound : a.Sound) : (a.call key .closeFrame).frames key = (a.frames key).tail := by
  cases top : a.opened key with
  | nil => simp [frames, Account.call, top]
  | cons j below =>
    obtain ⟨activation, _, frames⟩ := sound.frames_cons top
    rw [frames]
    simp [Account.frames, Account.call, top]

theorem frames_track (sound : a.Sound) (name : String) (value : Object Code) :
    (a.call key (.track name value)).frames key =
      (a.frames key).modifyHead (FrameCall.track name value).written := by
  cases top : a.opened key with
  | nil =>
    rw [call_track_nil top]
    simp [frames, top]
  | cons j below =>
    have fresh : j ∉ below := (List.nodup_cons.mp (top ▸ sound.nodup key)).1
    obtain ⟨activation, found, frames⟩ := sound.frames_cons top
    have changed : (a.activations.modify j (FrameCall.track name value).written)[j]? =
        some ((FrameCall.track name value).written activation) := by
      simp [found]
    have same : ∀ i ∈ below, (a.activations.modify j (FrameCall.track name value).written)[i]? = a.activations[i]? := by
      intro i member
      have ne : j ≠ i := fun eq => fresh (eq ▸ member)
      simp [ne]
    rw [frames, call_track_cons top]
    simp only [Account.frames, top]
    rw [List.filterMap_cons_some changed, List.filterMap_congr same]
    rfl

/-- A call works on the frames of its own stack only, as on a plain stack. -/
theorem frames_call (sound : a.Sound) (key key' : TrackerId × Thread) (c : FrameCall Code) :
    (a.call key c).frames key' = if key = key' then c.onto (a.frames key') else a.frames key' := by
  split
  case isTrue same =>
    subst same
    cases c with
    | openFrame owner method => exact sound.frames_openFrame owner method
    | closeFrame => exact sound.frames_closeFrame
    | track name value => exact sound.frames_track name value
  case isFalse ne =>
    refine frames_congr ?_ ?_
    · cases c with
      | openFrame owner method => simp [Account.call, Function.update_of_ne (Ne.symm ne)]
      | closeFrame => simp [Account.call, Function.update_of_ne (Ne.symm ne)]
      | track name value => rw [opened_track]
    · intro j member
      refine activations_call_of_ne (sound.valid key' j member) ?_ c
      intro top
      exact ne (sound.apart key key' j (List.mem_of_head? top) member)

end Sound

/-- The open activations of a stack are those of the plain stack on which only its own calls work. -/
theorem frames_ofCalls (key : TrackerId × Thread) (calls : FrameCalls Code) :
    (empty.after calls).frames key = framesOn key calls := by
  have general : ∀ a : Account Code, a.Sound → (a.after calls).frames key =
      ((calls.filter (·.1 = key)).map Prod.snd).foldl (fun frames c => c.onto frames) (a.frames key) := by
    induction calls with
    | nil => exact fun _ _ => rfl
    | cons c calls ih =>
      intro a sound
      have later := ih _ (sound.call c.1 c.2)
      rw [sound.frames_call] at later
      refine later.trans ?_
      by_cases own : c.1 = key
      · simp [own]
      · simp [own]
  exact general empty sound_empty

end Account

end FaultSnapshot
