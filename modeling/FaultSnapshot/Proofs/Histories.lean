import FaultSnapshot.Proofs.Balance
import FaultSnapshot.Proofs.Views
import Mathlib.Data.List.Induction

/-!
# Histories of hook calls

What is open after calls of hooks, said without a memory: each call is some calls on a plain stack,
and none if the hook refuses it (`Hook.onto`). While a program lives, the tracker shows the frames that
the calls of hooks so far have left (`Tracer.Lived.displays`), whatever other threads do and whatever
reports are made.
-/

namespace FaultSnapshot

variable {P : Program} {Code σ : Type}

/-! ## What calls do to a plain stack -/

/-- The pairs of a flat list of names and values, if it is one. -/
def flatPairs? : List (Object Code) → Option (List (String × Object Code))
  | [] => some []
  | [_] => none
  | name :: value :: rest => do return (← name.payload.text?, value) :: (← flatPairs? rest)

namespace Hook

/-- A method is entered with its parameters, unless one of them has no name. -/
def opening (owner : Option (Object Code)) (method : String) (params : List (String × Object Code)) :
    List (FrameCall Code) :=
  if ∀ p ∈ params, p.1 ≠ "" then .openFrame owner method :: params.map fun p => .track p.1 p.2 else []

/-- What a call of a hook does to the frames. -/
def frameCalls : Hook P → List (FrameCall P.Code)
  | .entering owner method params => opening owner method params
  | .enteringFlat owner method params => (flatPairs? params).elim [] (opening owner method)
  | .exiting => [.closeFrame]
  | .valueChange name value => [.track name value]
  | .returning _ => []
  | .onError _ _ => []
  | .timeout _ _ _ => []

/-- The frames after a call of a hook. -/
def onto (hook : Hook P) (frames : List (Activation P.Code)) : List (Activation P.Code) :=
  hook.frameCalls.foldl (fun frames c => c.onto frames) frames

/-- The frames that are open after some calls of hooks, the innermost first. -/
def openAfter (hooks : List (Hook P)) : List (Activation P.Code) := hooks.foldl (fun frames hook => hook.onto frames) []

end Hook

namespace Tracer

variable {method : String}

theorem flatPairs?_odd {params : List (Object Code)} (odd : params.length % 2 ≠ 0) : flatPairs? params = none := by
  induction params using flatPairs?.induct with
  | case1 => exact absurd rfl odd
  | case2 _ => rfl
  | case3 name value rest ih =>
    have rest_odd : rest.length % 2 ≠ 0 := by
      rw [List.length_cons, List.length_cons] at odd
      omega
    cases text : name.payload.text? <;> simp [flatPairs?, text, ih rest_odd]

theorem pairUp_even (method : String) {params : List (Object P.Code)} (even : params.length % 2 = 0) (position : Nat) :
    (pairUp method position params).toOption = flatPairs? params := by
  induction params using flatPairs?.induct generalizing position with
  | case1 => rfl
  | case2 _ => simp at even
  | case3 name value rest ih =>
    have rest_even : rest.length % 2 = 0 := by
      rw [List.length_cons, List.length_cons] at even
      omega
    cases text : name.payload.text? with
    | none => simp [pairUp, flatPairs?, text, Except.toOption]
    | some s =>
      have later := ih rest_even (position + 2)
      cases paired : pairUp method (position + 2) rest <;>
        simp [pairUp, flatPairs?, text, paired, Except.map, Except.toOption, ← later]

end Tracer

/-! ## Pictures of activations -/

namespace Activation

theorem nodup_names (a : Activation Code) : a.names.Nodup := by
  obtain ⟨owner, method, writes⟩ := a
  induction writes using List.reverseRecOn with
  | nil => exact List.nodup_nil
  | append_singleton writes e ih =>
    have names : (write ⟨owner, method, writes⟩ e.1 e.2).names = _ := names_write
    rw [write] at names
    rw [names]
    split
    · exact ih
    case isFalse new =>
      rw [List.nodup_append_comm, List.singleton_append]
      exact List.nodup_cons.mpr ⟨new, ih⟩

theorem seen_write {a : Activation Code} {names : List String} (nodup : names.Nodup)
    (known : ∀ name ∈ names, ∃ value, a.last? name = some value) (name : String) (value : Object Code) :
    ((a.write name value).seen (if name ∈ names then names else names ++ [name])).vars =
      OrderedMap.write name value (a.seen names).vars := by
  induction names with
  | nil => simp [seen, OrderedMap.write, last?_write_self]
  | cons first names ih =>
    rw [List.nodup_cons] at nodup
    obtain ⟨held, last⟩ := known first List.mem_cons_self
    have before : (a.seen (first :: names)).vars = (first, held) :: (a.seen names).vars := by
      simp only [seen, List.filterMap_cons, last, Option.map_some]
    rw [before]
    by_cases same : name = first
    · subst same
      have others : ∀ other ∈ names, (a.write name value).last? other = a.last? other := by
        intro other member
        exact last?_write_of_ne fun eq => nodup.1 (eq ▸ member)
      have rest : ((a.write name value).seen names).vars = (a.seen names).vars := by
        refine List.filterMap_congr ?_
        intro other member
        rw [others other member]
      rw [if_pos List.mem_cons_self, OrderedMap.write, if_pos rfl, ← rest]
      simp only [seen, List.filterMap_cons, last?_write_self, Option.map_some]
    · have names_eq : (if name ∈ first :: names then first :: names else first :: names ++ [name]) =
          first :: if name ∈ names then names else names ++ [name] := by
        by_cases member : name ∈ names <;> simp [member, same]
      have later := ih nodup.2 fun name member => known name (List.mem_cons_of_mem _ member)
      rw [names_eq, OrderedMap.write, if_neg (Ne.symm same), ← later]
      simp only [seen, List.filterMap_cons, last?_write_of_ne (Ne.symm same), last, Option.map_some]

/-- A write shows in the picture. -/
theorem picture_write (a : Activation Code) (name : String) (value : Object Code) :
    (a.write name value).picture = { a.picture with vars := OrderedMap.write name value a.picture.vars } := by
  have vars := seen_write a.nodup_names (fun _ => mem_names.mp) name value
  rw [← names_write] at vars
  exact congrArg (fun vars => (⟨a.owner, a.method, vars⟩ : Picture Code)) vars

end Activation

/-! ## What a memory shows -/

namespace Memory

variable {m : Memory Code} {key : TrackerId × Thread} {frames : List (Activation Code)}

/-- The tracker shows these frames on the thread. -/
structure Shows (m : Memory Code) (key : TrackerId × Thread) (frames : List (Activation Code)) : Prop where
  sound : m.Sound key
  pictures : m.pictures key = frames.map Activation.picture

theorem Shows.cons {activation : Activation Code} (shows : m.Shows key (activation :: frames)) :
    ∃ m₀ : Memory Code, m₀.Shows key frames ∧ Opened key m₀ activation.picture m := by
  cases stack : (m.stack key).toList with
  | nil =>
    have none := shows.pictures
    rw [Memory.pictures, views, stack] at none
    cases none
  | cons frame rest =>
    obtain ⟨m₀, sound, opened⟩ := shows.sound.opened stack
    have same := opened.pictures.symm.trans shows.pictures
    rw [List.map_cons, List.cons.injEq] at same
    exact ⟨m₀, ⟨sound, same.2⟩, same.1 ▸ opened⟩

theorem Shows.nil (shows : m.Shows key []) : (m.stack key).toList = [] := by
  have none := shows.pictures
  rw [Memory.pictures, views] at none
  simpa using none

theorem Shows.openFrame (shows : m.Shows key frames) (owner : Option (Object Code)) (method : String) :
    ∃ m', m.openFrame key owner method = (.ok (), m') ∧ m'.Shows key (⟨owner, method, []⟩ :: frames) := by
  obtain ⟨m', opens, opened⟩ := openFrame_opened shows.sound owner method
  refine ⟨m', opens, opened.sound, ?_⟩
  rw [opened.pictures, shows.pictures]
  rfl

theorem Shows.closeFrame (shows : m.Shows key frames) : (m.closeFrame key).2.Shows key frames.tail := by
  cases frames with
  | nil =>
    rw [Memory.closeFrame, CallStack.pop_nil shows.nil shows.sound.arena]
    exact shows
  | cons activation frames =>
    obtain ⟨m₀, below, opened⟩ := shows.cons
    obtain ⟨m', closes, undisturbed⟩ := closeFrame_undisturbed below.sound opened
    rw [closes]
    exact ⟨undisturbed.sound below.sound, undisturbed.pictures.trans below.pictures⟩

theorem Shows.track (shows : m.Shows key frames) (name : String) (value : Object Code) :
    (m.track key name value).2.Shows key ((FrameCall.track name value).onto frames) := by
  by_cases named : name = ""
  · subst named
    have same : (FrameCall.track "" value).onto frames = frames := by cases frames <;> rfl
    rw [same]
    exact shows
  · cases frames with
    | nil =>
      rw [Memory.track_nil shows.sound.arena shows.nil]
      exact shows
    | cons activation frames =>
      obtain ⟨m₀, below, opened⟩ := shows.cons
      obtain ⟨m', tracks, opened⟩ := track_opened opened named value
      rw [tracks]
      refine ⟨opened.sound, ?_⟩
      rw [opened.pictures, below.pictures, ← activation.picture_write]
      simp [FrameCall.onto, FrameCall.written, named]

end Memory

/-! ## Lives -/

namespace Tracer

/-- What the tracker shows on a thread. -/
def shown (t : Tracer P) (thread : Thread) (w : World P) : List (Picture P.Code) × Prop :=
  (w.memory.pictures (t.tracker.id, thread), w.memory.Sound (t.tracker.id, thread))

/-- What the tracker shows on a thread, and whether the tracer builds a report there: nobody but the
    code of the thread changes these. -/
def live (t : Tracer P) (thread : Thread) (w : World P) : (List (Picture P.Code) × Prop) × Bool :=
  (t.shown thread w, (w.reportingOf t.name thread).processing)

/-- The tracker shows these frames on the thread, and the tracer builds a report there or does not. -/
structure Displays (t : Tracer P) (thread : Thread) (busy : Bool) (frames : List (Activation P.Code)) (w : World P) :
    Prop where
  shows : w.memory.Shows (t.tracker.id, thread) frames
  processing : (w.reportingOf t.name thread).processing = busy

/-- The code leaves the open frames alone while the tracer builds a report. -/
def Respects (exec : Exec P) (t : Tracer P) (thread : Thread) : Prop :=
  ∀ (site : Site) (c : P.Code) (frames : List (Activation P.Code)), site.thread = thread →
    (exec site c).Maintains (t.live thread) (t.Displays thread true frames)

/-- From the start of the world until now the hooks of the tracer were called in this order on the
    thread. Between these calls and between their steps anything may happen that changes nothing of
    what the tracker shows there. A call may have ended with a panic. -/
inductive Lived (exec : Exec P) (t : Tracer P) (thread : Thread) : List (Hook P) → World P → Prop
  | start (clocks : Clocks) (stamp : Nat → Stamp) (state : P.State) : Lived exec t thread [] (.start clocks stamp state)
  | meanwhile {hooks : List (Hook P)} {w v : World P} (lived : Lived exec t thread hooks w)
      (same : t.live thread v = t.live thread w) : Lived exec t thread hooks v
  | call {hooks : List (Hook P)} {hook : Hook P} {site : Site} {w v : World P}
      {r : Except Interrupt (Except Fault Unit)} (lived : Lived exec t thread hooks w) (on : site.thread = thread)
      (ends : (t.call exec site hook).Ends (t.live thread) w r v) (survives : Run.Survives r) :
      Lived exec t thread (hooks ++ [hook]) v

variable {t : Tracer P} {thread : Thread} {busy : Bool} {frames : List (Activation P.Code)} {w v : World P}

theorem shows_later (shows : w.memory.Shows (t.tracker.id, thread) frames)
    (same : t.shown thread v = t.shown thread w) :
    v.memory.Shows (t.tracker.id, thread) frames := by
  obtain ⟨pictures, sound⟩ := Prod.mk.inj same
  exact ⟨sound ▸ shows.sound, pictures.trans shows.pictures⟩

namespace Displays

theorem later (displays : t.Displays thread busy frames w) (same : t.live thread v = t.live thread w) :
    t.Displays thread busy frames v := by
  obtain ⟨shown, processing⟩ := Prod.mk.inj same
  exact ⟨shows_later displays.shows shown, processing.trans displays.processing⟩

theorem seen : Run.Seen (t.live thread) (t.Displays thread busy frames) := fun same displays => displays.later same

theorem occasion (t : Tracer P) (thread : Thread) (frames : List (Activation P.Code)) :
    Occasion (t.live thread) t thread fun busy => t.Displays thread busy frames where
  seen _ := seen
  untouched _ w v memory known displays := ⟨memory ▸ displays.shows, (known _ _).symm ▸ displays.processing⟩
  tells displays := displays.processing
  turned r displays := ⟨displays.shows, by simp [World.reportingOf, World.setReporting]⟩

/-- The memory has changed as a call on the frames changes it. -/
theorem call {frames' : List (Activation P.Code)} {m : Memory P.Code} (displays : t.Displays thread busy frames w)
    (shows : m.Shows (t.tracker.id, thread) frames') : t.Displays thread busy frames' { w with memory := m } :=
  ⟨shows, displays.processing⟩

end Displays

section
variable {exec : Exec P} {site : Site}

/-- While the tracer builds a report, its hooks change nothing of what is open. -/
theorem respects_call (hook : Hook P) :
    (t.call exec site hook).Maintains (t.live site.thread) (t.Displays site.thread true frames) := by
  have occasion := Displays.occasion t site.thread frames
  have ignored : ∀ rest : Run P (Except Fault Unit), (do
      if ← t.isProcessing site.thread then return .ok ()
      rest : Run P (Except Fault Unit)).Maintains (t.live site.thread) (t.Displays site.thread true frames) := by
    intro rest
    refine .read_eq Displays.seen true (fun _ displays => displays.processing) ?_
    exact .pure Displays.seen _
  cases hook with
  | entering owner method params => exact ignored _
  | enteringFlat owner method params => exact ignored _
  | exiting => exact ignored _
  | valueChange name value => exact ignored _
  | returning value => exact .pure Displays.seen _
  | onError method e => exact maintains_ignored occasion
  | timeout method thresholdMs actualMs => exact maintains_ignored occasion

/-- A hook that does something while no report is built, for one who sees at least what the tracer shows. -/
theorem keeps_not_busy {see : World P → σ} (known : ∀ u v, see u = see v → t.live thread u = t.live thread v)
    (displays : t.Displays thread false frames w) {guar : World P → World P → Prop}
    {rest : Run P (Except Fault Unit)} {post : Except Interrupt (Except Fault Unit) → World P → Prop}
    (still : ∀ v, guar v v) (idle : ∀ v, t.Displays thread false frames v → rest.Keeps see guar post v) :
    (do
      if ← t.isProcessing thread then return .ok ()
      rest : Run P (Except Fault Unit)).Keeps see guar post w := by
  refine .look_still still fun v same => ?_
  have displays := displays.later (known v w same)
  rw [displays.processing]
  exact idle v displays

/-- A hook that does something while no report is built. -/
theorem keeps_idle {rest : Run P (Except Fault Unit)} {post : Except Interrupt (Except Fault Unit) → World P → Prop}
    (displays : t.Displays thread false frames w)
    (idle : ∀ v, t.Displays thread false frames v → rest.Keeps (t.live thread) (fun _ _ => True) post v) :
    (do
      if ← t.isProcessing thread then return .ok ()
      rest : Run P (Except Fault Unit)).Keeps (t.live thread) (fun _ _ => True) post w :=
  keeps_not_busy (fun _ _ same => same) displays (fun _ => trivial) idle

theorem keeps_openFrame (owner : Option (Object P.Code)) {method : String}
    (accepted : method ∉ t.tracker.refusedMethods) (displays : t.Displays thread busy frames w) :
    (t.tracker.openFrame thread owner method).Keeps (t.live thread) (fun _ _ => True)
      (Run.Returned fun r v => r = .ok () ∧
        t.Displays thread busy ((FrameCall.openFrame owner method).onto frames) v) w := by
  rw [Tracker.openFrame, if_neg accepted]
  intro v same
  have displays := displays.later same
  obtain ⟨m, ok, shows⟩ := displays.shows.openFrame owner method
  simp only [ok]
  exact ⟨trivial, fun u same => ⟨rfl, (displays.call shows).later same⟩⟩

/-- A named parameter is written into the innermost frame. -/
theorem keeps_parameter {name : String} (accepted : name ∉ t.tracker.refusedVariables) (named : name ≠ "")
    (value : Object P.Code) (open_ : frames ≠ []) (displays : t.Displays thread busy frames w) :
    (t.tracker.track thread name value).Keeps (t.live thread) (fun _ _ => True)
      (Run.Returned fun r v => r = .ok () ∧
        t.Displays thread busy ((FrameCall.track name value).onto frames) v) w := by
  rw [Tracker.track, if_neg accepted]
  intro v same
  have displays := displays.later same
  refine ⟨trivial, fun u same => ⟨?_, (displays.call (displays.shows.track name value)).later same⟩⟩
  obtain ⟨activation, rest, rfl⟩ := List.exists_cons_of_ne_nil open_
  obtain ⟨m₀, _, opened⟩ := displays.shows.cons
  obtain ⟨frame, stack, _⟩ := opened.frames
  exact Memory.track_ok opened.sound.arena stack named value

/-- Named parameters are written into the innermost frame. -/
theorem keeps_parameters {params : List (String × Object P.Code)}
    (accepted : ∀ p ∈ params, p.1 ∉ t.tracker.refusedVariables) (named : ∀ p ∈ params, p.1 ≠ "")
    (open_ : frames ≠ []) (displays : t.Displays thread busy frames w) :
    (t.tracker.trackAll thread params).Keeps (t.live thread) (fun _ _ => True)
      (Run.Returned fun r v => r = .ok () ∧
        t.Displays thread busy (params.foldl (fun frames p => (FrameCall.track p.1 p.2).onto frames) frames) v) w := by
  -- Some frame is open all the time.
  let inv : List (Activation P.Code) → World P → Prop := fun frames w => frames ≠ [] ∧ t.Displays thread busy frames w
  have seen : ∀ frames, Run.Seen (t.live thread) (inv frames) := fun _ _ _ same holds =>
    ⟨holds.1, holds.2.later same⟩
  have start : inv frames w := ⟨open_, displays⟩
  refine (Tracker.keeps_trackAll (fun frames p => (FrameCall.track p.1 p.2).onto frames) seen ?_ _ start).returned_mono
    fun _ _ written => ⟨written.1, written.2.2⟩
  intro p member frames x holds
  have stays : (FrameCall.track p.1 p.2).onto frames ≠ [] := by
    obtain ⟨activation, rest, rfl⟩ := List.exists_cons_of_ne_nil holds.1
    exact List.cons_ne_nil _ _
  refine (keeps_parameter (accepted p member) (named p member) p.2 holds.1 holds.2).returned_mono ?_
  exact fun _ _ written => ⟨written.1, stays, written.2⟩

section
variable (accepts : t.tracker.refusedMethods = [] ∧ t.tracker.refusedVariables = [])
include accepts

theorem keeps_track (name : String) (value : Object P.Code) (displays : t.Displays thread busy frames w) :
    (t.tracker.track thread name value).Keeps (t.live thread) (fun _ _ => True)
      (fun r v => Run.Survives r → t.Displays thread busy ((FrameCall.track name value).onto frames) v) w := by
  simp only [Tracker.track, accepts.2, List.not_mem_nil, if_false]
  intro v same
  have displays := displays.later same
  exact ⟨trivial, fun u same _ => (displays.call (displays.shows.track name value)).later same⟩

theorem keeps_entering (owner : Option (Object P.Code)) (method : String) (params : List (String × Object P.Code))
    (displays : t.Displays site.thread false frames w) :
    (t.entering site owner method params).Keeps (t.live site.thread) (fun _ _ => True)
      (fun r v => Run.Survives r →
        t.Displays site.thread false ((Hook.entering owner method params : Hook P).onto frames) v) w := by
  refine keeps_idle displays fun v displays => ?_
  rw [Hook.onto, Hook.frameCalls]
  cases unnamed : unnamedAt? params with
  | some position =>
    have refused : ¬ ∀ p ∈ params, p.1 ≠ "" := by
      intro named
      have none : unnamedAt? params = none := by simpa [unnamedAt?] using named
      cases none.symm.trans unnamed
    rw [Hook.opening, if_neg refused]
    exact fun u same _ => displays.later same
  | none =>
    have named : ∀ p ∈ params, p.1 ≠ "" := by simpa [unnamedAt?] using unnamed
    rw [Hook.opening, if_pos named, List.foldl_cons, List.foldl_map]
    have method_accepted : method ∉ t.tracker.refusedMethods := by simp [accepts.1]
    have params_accepted : ∀ p ∈ params, p.1 ∉ t.tracker.refusedVariables := by simp [accepts.2]
    refine (keeps_openFrame owner method_accepted displays).returned ?_
    rintro r u ⟨rfl, displays⟩
    refine (keeps_parameters params_accepted named (List.cons_ne_nil _ _) displays).returned_mono ?_
    exact fun _ _ written _ => written.2

theorem keeps_enteringFlat (owner : Option (Object P.Code)) (method : String) (params : List (Object P.Code))
    (displays : t.Displays site.thread false frames w) :
    (t.enteringFlat site owner method params).Keeps (t.live site.thread) (fun _ _ => True)
      (fun r v => Run.Survives r →
        t.Displays site.thread false ((Hook.enteringFlat owner method params : Hook P).onto frames) v) w := by
  refine keeps_idle displays fun v displays => ?_
  rw [Hook.onto, Hook.frameCalls]
  by_cases even : params.length % 2 = 0
  · rw [if_neg (not_not_intro even), ← pairUp_even method even 0]
    cases paired : pairUp method 0 params with
    | ok pairs => exact keeps_entering accepts owner method pairs displays
    | error f => exact fun u same _ => displays.later same
  · rw [if_pos even, flatPairs?_odd even]
    exact fun u same _ => displays.later same

/-- A call of a hook changes what is open as it should. -/
theorem keeps_call (respects : t.Respects exec site.thread) (hook : Hook P)
    (displays : t.Displays site.thread false frames w) :
    (t.call exec site hook).Keeps (t.live site.thread) (fun _ _ => True)
      (fun r v => Run.Survives r → t.Displays site.thread false (hook.onto frames) v) w := by
  have occasion := Displays.occasion t site.thread frames
  have code : ∀ c, (exec site c).Maintains (t.live site.thread) (t.Displays site.thread true frames) := fun c =>
    respects site c frames rfl
  cases hook with
  | entering owner method params => exact keeps_entering accepts owner method params displays
  | enteringFlat owner method params => exact keeps_enteringFlat accepts owner method params displays
  | exiting =>
    refine keeps_idle displays fun v displays u same => ?_
    have displays := displays.later same
    exact ⟨trivial, fun x same _ => (displays.call displays.shows.closeFrame).later same⟩
  | valueChange name value => exact keeps_idle displays fun v displays => keeps_track accepts name value displays
  | returning value => exact fun v same _ => displays.later same
  | onError method e => exact maintains_onError occasion code method e false w displays
  | timeout method thresholdMs actualMs =>
    exact maintains_timeout occasion code method thresholdMs actualMs false w displays

omit accepts in
/-- A call that nothing comes in between. -/
theorem Lived.alone {hooks : List (Hook P)} {r : Except Fault Unit} (lived : t.Lived exec thread hooks w) (site : Site)
    (on : site.thread = thread) (hook : Hook P) (executed : (t.call exec site hook).run w = .ok r v) :
    t.Lived exec thread (hooks ++ [hook]) v :=
  lived.call on (.of_run executed) trivial

/-- The tracker shows the frames that the calls of hooks so far have left. -/
theorem Lived.displays {hooks : List (Hook P)} (respects : t.Respects exec thread)
    (lived : t.Lived exec thread hooks w) : t.Displays thread false (Hook.openAfter hooks) w := by
  -- By induction on the calls: between two of them nothing is shown that was not shown before.
  induction lived with
  | start clocks stamp state => exact ⟨⟨Memory.Made.empty.sound _, rfl⟩, rfl⟩
  | meanwhile _ same ih => exact ih.later same
  | call _ on ends survives ih =>
    subst on
    have called := (keeps_call accepts respects _ ih).ends ends survives
    rwa [Hook.openAfter, List.foldl_append]

end

end

end Tracer

end FaultSnapshot
