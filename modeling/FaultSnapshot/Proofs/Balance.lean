import FaultSnapshot.Guard
import FaultSnapshot.Proofs.Memories
import FaultSnapshot.Proofs.Upkeep

/-!
# Traced calls and the frames they leave

A traced call opens a frame and closes it again, whether its body returns or panics, and does
neither while its tracer builds a report. `Bracketed` describes what programs do that open and close
frames by traced calls only. Where such a program returns or ends with a panic, the frames are open
that were open at its start (`Bracketed.same_frames`).
-/

namespace FaultSnapshot

variable {P : Program} {α β : Type} {mine : Thread → Prop}

/-- The same call later on, with all its variables and maybe more. -/
structure Frame.Continues {Code : Type} (f g : Frame Code) : Prop where
  owner : g.owner = f.owner
  method : g.method = f.method
  vars : f.vars.entries <+: g.vars.entries

/-- What is open on the threads of `mine`, for all trackers, and what all tracers know of them. -/
def Lanes (mine : Thread → Prop) (w : World P) (thread : {thread // mine thread}) :
    (TrackerId → CallStack (Frame P.Code)) × (String → Reporting) :=
  (fun tracker => w.memory.stack (tracker, thread), fun tracer => w.reportingOf tracer thread)

/-- The tracker writes whatever it is given. -/
def Monitor.Willing : Monitor P → Prop
  | silent => True
  | active t => t.tracker.refusedVariables = []

/-- What a program does that opens and closes frames by traced calls only: on threads of `mine`, it
    makes traced calls, writes variables, and reports errors and timeouts, where serializers and
    handlers may do the same. Its own steps leave open frames and tracers alone. -/
inductive Bracketed (mine : Thread → Prop) : {α : Type} → Run P α → Prop
  | done {α : Type} (a : α) : Bracketed mine (.done a)
  | stop {α : Type} (e : Interrupt) : Bracketed mine (.stop e : Run P α)
  | act {α : Type} {change : World P → World P} {next : World P → Run P α}
      (apart : ∀ w, Lanes mine (change w) = Lanes mine w) (rest : ∀ w, Bracketed mine (next w)) :
      Bracketed mine (.act change next)
  | bind {α β : Type} {m : Run P α} {k : α → Run P β} (first : Bracketed mine m) (rest : ∀ a, Bracketed mine (k a)) :
      Bracketed mine (m >>= k)
  | rescue {α : Type} {m : Run P α} {handle : Interrupt → Run P α} (first : Bracketed mine m)
      (handled : ∀ payload, Bracketed mine (handle (.panic payload)))
      (other : ∀ e, (∀ payload, e ≠ .panic payload) → handle e = .stop e) : Bracketed mine (tryCatch m handle)
  | traced {α : Type} {exec : Exec P} {m : Monitor P} {site : Site} {owner : Option (Object P.Code)} {method : String}
      {params : List (String × Object P.Code)} {body : Guard P → Run P (Except ErrorRef α)} (on : mine site.thread)
      (willing : m.Willing) (code : ∀ c, Bracketed mine (exec site c)) (within : ∀ g, Bracketed mine (body g)) :
      Bracketed mine (traced exec m site owner method params body)
  | valueChange {m : Monitor P} {site : Site} {name : String} {value : Object P.Code} (on : mine site.thread) :
      Bracketed mine (m.valueChange site name value)
  | onError {exec : Exec P} {m : Monitor P} {site : Site} {method : String} {e : ErrorRef} (on : mine site.thread)
      (code : ∀ c, Bracketed mine (exec site c)) : Bracketed mine (m.onError exec site method e)
  | timeout {exec : Exec P} {m : Monitor P} {site : Site} {method : String} {thresholdMs actualMs : UInt64}
      (on : mine site.thread) (code : ∀ c, Bracketed mine (exec site c)) :
      Bracketed mine (m.timeout exec site method thresholdMs actualMs)

/-! ## Frames -/

namespace Frame.Continues

variable {Code : Type} {f g h : Frame Code}

theorem refl (f : Frame Code) : f.Continues f := ⟨rfl, rfl, List.prefix_rfl⟩

theorem trans (first : f.Continues g) (later : g.Continues h) : f.Continues h :=
  ⟨later.owner.trans first.owner, later.method.trans first.method, first.vars.trans later.vars⟩

end Frame.Continues

namespace Memory

variable {Code : Type} {m : Memory Code} {key : TrackerId × Thread} {f : Frame Code} {rest : List (Frame Code)}

/-- A write to a variable leaves all open frames open. -/
theorem stack_track (arena : (m.stack key).height ≤ (m.stack key).slots.size)
    (frames : (m.stack key).toList = f :: rest) (name : String) (value : Object Code) :
    ∃ g m', (m.track key name value).2 = m' ∧ f.Continues g ∧ (m'.stack key).toList = g :: rest ∧
      (m'.stack key).height ≤ (m'.stack key).slots.size ∧ ∀ other ≠ key, m'.stack other = m.stack other := by
  have top : (m.stack key).top? = some f := by
    rw [CallStack.top?_eq arena, frames]
    rfl
  by_cases named : name = ""
  · exact ⟨f, m, by rw [track, if_pos named], .refl f, frames, arena, fun _ _ => rfl⟩
  · cases found : f.vars.get? name with
    | some cell =>
      refine ⟨f, m.write cell value, ?_, .refl f, frames, arena, fun _ _ => rfl⟩
      simp only [track, if_neg named, top, found]
    | none =>
      let extended : Frame Code := { f with vars := f.vars.insert name m.cells.size }
      obtain ⟨toList, arena⟩ := CallStack.setTop_toList arena frames extended
      have more : f.vars.entries <+: extended.vars.entries :=
        ⟨_, (OrderedMap.write_new (OrderedMap.find_none found)).symm⟩
      refine ⟨extended, _, rfl, ⟨rfl, rfl, more⟩, ?_, ?_, ?_⟩
      · simp only [track, if_neg named, top, found, newCell, stack_setStack]
        exact toList
      · simp only [track, if_neg named, top, found, newCell, stack_setStack]
        exact arena
      · intro other ne
        simp only [track, if_neg named, top, found, newCell]
        exact stack_setStack_of_ne ne

/-- A named variable of an open frame is written. -/
theorem track_ok (arena : (m.stack key).height ≤ (m.stack key).slots.size) (frames : (m.stack key).toList = f :: rest)
    {name : String} (named : name ≠ "") (value : Object Code) : (m.track key name value).1 = .ok () := by
  have top : (m.stack key).top? = some f := by
    rw [CallStack.top?_eq arena, frames]
    rfl
  cases found : f.vars.get? name <;> simp only [track, if_neg named, top, found]

theorem track_nil (arena : (m.stack key).height ≤ (m.stack key).slots.size) (frames : (m.stack key).toList = [])
    (name : String) (value : Object Code) : (m.track key name value).2 = m := by
  have top : (m.stack key).top? = none := by
    rw [CallStack.top?_eq arena, frames]
    rfl
  by_cases named : name = ""
  · simp only [track, if_pos named]
  · simp only [track, if_neg named, top]

end Memory

/-! ## Standing frames -/

/-- On the threads of `mine`, the frames of `base` are open, and just the tracers of `busy` build
    reports. -/
structure Standing (mine : Thread → Prop) (base : TrackerId × Thread → List (Frame P.Code))
    (busy : String × Thread → Bool) (w : World P) : Prop where
  frames : ∀ key, mine key.2 → List.Forall₂ Frame.Continues (base key) (w.memory.stack key).toList
  arena : ∀ key, mine key.2 → (w.memory.stack key).height ≤ (w.memory.stack key).slots.size
  processing : ∀ tracer thread, mine thread → (w.reportingOf tracer thread).processing = busy (tracer, thread)

variable {base : TrackerId × Thread → List (Frame P.Code)} {busy : String × Thread → Bool} {w v : World P}
variable {key : TrackerId × Thread} {thread : Thread}

theorem stack_of_lanes (same : Lanes mine v = Lanes mine w) (on : mine key.2) :
    v.memory.stack key = w.memory.stack key :=
  congrFun (congrArg Prod.fst (congrFun same ⟨key.2, on⟩)) key.1

theorem reportingOf_of_lanes (same : Lanes mine v = Lanes mine w) (tracer : String) (on : mine thread) :
    v.reportingOf tracer thread = w.reportingOf tracer thread :=
  congrFun (congrArg Prod.snd (congrFun same ⟨thread, on⟩)) tracer

namespace Standing

theorem later (stands : Standing mine base busy w) (same : Lanes mine v = Lanes mine w) :
    Standing mine base busy v := by
  refine ⟨?_, ?_, ?_⟩
  · intro key on
    rw [stack_of_lanes same on]
    exact stands.frames key on
  · intro key on
    rw [stack_of_lanes same on]
    exact stands.arena key on
  · intro tracer thread on
    rw [reportingOf_of_lanes same tracer on]
    exact stands.processing tracer thread on

theorem seen : Run.Seen (Lanes mine) (Standing mine base busy) := fun same stands => stands.later same

theorem untouched : Untouched (Standing mine base busy) := by
  intro w v memory known stands
  refine stands.later (funext fun thread => Prod.ext ?_ ?_)
  · exact funext fun tracker => congrArg (Memory.stack · (tracker, thread.1)) memory
  · exact funext fun tracer => known tracer thread

/-- The world as it is now. -/
theorem now (made : w.memory.Made) : Standing mine (fun key => (w.memory.stack key).toList)
    (fun place => (w.reportingOf place.1 place.2).processing) w where
  frames _ _ := List.forall₂_same.mpr fun f _ => .refl f
  arena key _ := (made.sound key).arena
  processing _ _ _ := rfl

/-- The stack of one tracker on one thread is another one now. -/
theorem restacked {m : Memory P.Code} {frames : List (Frame P.Code)} (stands : Standing mine base busy w)
    (apart : ∀ other ≠ key, m.stack other = w.memory.stack other)
    (now : List.Forall₂ Frame.Continues frames (m.stack key).toList)
    (arena : (m.stack key).height ≤ (m.stack key).slots.size) :
    Standing mine (Function.update base key frames) busy { w with memory := m } where
  frames other on := by
    by_cases same : other = key
    · subst same
      simpa using now
    · rw [Function.update_of_ne same, apart other same]
      exact stands.frames other on
  arena other on := by
    by_cases same : other = key
    · subst same
      exact arena
    · rw [apart other same]
      exact stands.arena other on
  processing := stands.processing

theorem openFrame (stands : Standing mine base busy w) (on : mine key.2) (owner : Option (Object P.Code))
    (method : String) :
    ∃ m, w.memory.openFrame key owner method = (.ok (), m) ∧
      Standing mine (Function.update base key (.opened owner method :: base key)) busy { w with memory := m } := by
  obtain ⟨s, pushed, toList, arena⟩ := CallStack.push_toList (stands.arena key on) (.opened owner method)
  refine ⟨w.memory.setStack key s, by simp only [Memory.openFrame, pushed], stands.restacked ?_ ?_ ?_⟩
  · exact fun other ne => Memory.stack_setStack_of_ne ne
  · rw [Memory.stack_setStack, toList]
    exact .cons (.refl _) (stands.frames key on)
  · rw [Memory.stack_setStack]
    exact arena

/-- The innermost frame is closed, where there is one. -/
theorem closeFrame (stands : Standing mine base busy w) (on : mine key.2) :
    Standing mine (Function.update base key (base key).tail) busy
      { w with memory := (w.memory.closeFrame key).2 } := by
  have frames := stands.frames key on
  cases stack : (w.memory.stack key).toList with
  | nil =>
    rw [stack, List.forall₂_nil_right_iff] at frames
    rw [Memory.closeFrame, CallStack.pop_nil stack (stands.arena key on), frames, List.tail_nil, ← frames,
      Function.update_eq_self]
    exact stands
  | cons g rest =>
    rw [stack] at frames
    obtain ⟨f, below, _, same, opened⟩ := List.forall₂_cons_right_iff.mp frames
    obtain ⟨s, popped, toList, arena⟩ := CallStack.pop_toList (stands.arena key on) stack .cleared
    rw [Memory.closeFrame, popped, opened, List.tail_cons]
    refine stands.restacked (fun other ne => Memory.stack_setStack_of_ne ne) ?_ ?_
    · rwa [Memory.stack_setStack, toList]
    · rwa [Memory.stack_setStack]

theorem track (stands : Standing mine base busy w) (on : mine key.2) (name : String) (value : Object P.Code) :
    Standing mine base busy { w with memory := (w.memory.track key name value).2 } := by
  have arena := stands.arena key on
  have frames := stands.frames key on
  cases stack : (w.memory.stack key).toList with
  | nil =>
    rw [Memory.track_nil arena stack]
    exact stands
  | cons g rest =>
    obtain ⟨g', m, tracked, continues, stack', arena', apart⟩ := Memory.stack_track arena stack name value
    rw [tracked]
    rw [stack] at frames
    obtain ⟨f, below, continued, same, eq⟩ := List.forall₂_cons_right_iff.mp frames
    have now : List.Forall₂ Frame.Continues (base key) (m.stack key).toList := by
      rw [eq, stack']
      exact .cons (continued.trans continues) same
    have written := stands.restacked apart now arena'
    rwa [Function.update_eq_self] at written

end Standing

/-! ## Hooks that open, write and close -/

/-- What is open after a call is entered. Nothing more is where monitoring is off, and while the
    tracer builds a report. -/
def Monitor.entered (m : Monitor P) (site : Site) (frame : Frame P.Code)
    (base : TrackerId × Thread → List (Frame P.Code)) (busy : String × Thread → Bool) :
    TrackerId × Thread → List (Frame P.Code) :=
  match m with
  | silent => base
  | active t =>
    if busy (t.name, site.thread) then base
    else Function.update base (t.tracker.id, site.thread) (frame :: base (t.tracker.id, site.thread))

/-- What is open after a call is left. Nothing less is where monitoring is off, and while the tracer
    builds a report. -/
def Monitor.left (m : Monitor P) (site : Site) (base : TrackerId × Thread → List (Frame P.Code))
    (busy : String × Thread → Bool) : TrackerId × Thread → List (Frame P.Code) :=
  match m with
  | silent => base
  | active t =>
    if busy (t.name, site.thread) then base
    else Function.update base (t.tracker.id, site.thread) (base (t.tracker.id, site.thread)).tail

/-- A call that was entered is left, and its frame is closed if it has one. -/
theorem Monitor.left_entered (m : Monitor P) (site : Site) (frame : Frame P.Code)
    (base : TrackerId × Thread → List (Frame P.Code)) (busy : String × Thread → Bool) :
    m.left site (m.entered site frame base busy) busy = base := by
  cases m with
  | silent => rfl
  | active t =>
    cases building : busy (t.name, site.thread) with
    | true => simp only [left, entered, building, if_true]
    | false =>
      simp only [left, entered, building, Bool.false_eq_true, if_false]
      rw [Function.update_self, List.tail_cons, Function.update_idem, Function.update_eq_self]

/-- A call is entered and has its frame, or it is refused and has none. -/
def Entered (mine : Thread → Prop) (inside base : TrackerId × Thread → List (Frame P.Code))
    (busy : String × Thread → Bool) : Except Fault β → World P → Prop
  | .ok _, v => Standing mine inside busy v
  | .error _, v => Standing mine base busy v

section
variable {site : Site} {t : Tracer P} {m : Monitor P} {owner : Option (Object P.Code)} {method : String}

theorem Tracker.maintains_track (t : Tracker) (on : mine thread) (name : String) (value : Object P.Code) :
    (t.track thread name value).Maintains (Lanes mine) (Standing mine base busy) := by
  unfold Tracker.track
  split
  · exact .pure Standing.seen _
  · exact .act Standing.seen (fun w stands => stands.track on name value) fun _ => .done Standing.seen _

theorem Monitor.maintains_valueChange (m : Monitor P) (on : mine site.thread) (name : String) (value : Object P.Code) :
    (m.valueChange site name value).Maintains (Lanes mine) (Standing mine base busy) := by
  cases m with
  | silent => exact .pure Standing.seen _
  | active t =>
    refine .read Standing.seen ?_
    intro processing
    split
    · exact .pure Standing.seen _
    · exact t.tracker.maintains_track on name value

/-- A named variable of an open frame is written. -/
theorem Tracker.keeps_track {tracker : Tracker} {f : Frame P.Code} {rest : List (Frame P.Code)}
    (willing : tracker.refusedVariables = []) (on : mine thread) (opened : base (tracker.id, thread) = f :: rest)
    {name : String} (named : name ≠ "") (value : Object P.Code) (stands : Standing mine base busy w) :
    (tracker.track thread name value).Keeps (Lanes mine) (fun _ _ => True)
      (Run.Returned fun r v => r = .ok () ∧ Standing mine base busy v) w := by
  simp only [track, willing, List.not_mem_nil, if_false]
  intro v same
  have stands := stands.later same
  refine ⟨trivial, fun u same => ⟨?_, (stands.track on name value).later same⟩⟩
  have frames := stands.frames (tracker.id, thread) on
  rw [opened] at frames
  obtain ⟨g, below, _, _, stack⟩ := List.forall₂_cons_left_iff.mp frames
  exact Memory.track_ok (stands.arena _ on) stack named value

theorem Tracker.keeps_openFrame {tracker : Tracker} (on : mine thread) (owner : Option (Object P.Code))
    (method : String) (stands : Standing mine base busy w) :
    (tracker.openFrame thread owner method).Keeps (Lanes mine) (fun _ _ => True)
      (Run.Returned (Entered mine
        (Function.update base (tracker.id, thread) (.opened owner method :: base (tracker.id, thread)))
        base busy)) w := by
  unfold Tracker.openFrame
  split
  · exact fun u same => stands.later same
  · intro v same
    refine ⟨trivial, fun u same' => ?_⟩
    have mine_key : mine (tracker.id, thread).2 := on
    obtain ⟨m, ok, stands⟩ := (stands.later same).openFrame mine_key owner method
    simp only [ok] at same' ⊢
    exact stands.later same'

theorem Monitor.keeps_entering (m : Monitor P) (willing : m.Willing) (on : mine site.thread)
    (owner : Option (Object P.Code)) (method : String) (params : List (String × Object P.Code))
    (stands : Standing mine base busy w) :
    (m.entering site owner method params).Keeps (Lanes mine) (fun _ _ => True)
      (Run.Returned (Entered mine (m.entered site (.opened owner method) base busy) base busy)) w := by
  cases m with
  | silent => exact fun v same => stands.later same
  | active t =>
    refine .look fun v same => ?_
    have stands := stands.later same
    rw [stands.processing t.name site.thread on]
    cases building : busy (t.name, site.thread) with
    | true =>
      simp only [Monitor.entered, building, if_true]
      exact fun u same => stands.later same
    | false =>
      simp only [Monitor.entered, building, Bool.false_eq_true, if_false]
      cases unnamed : Tracer.unnamedAt? params with
      | some position => exact fun u same => stands.later same
      | none =>
        have named : ∀ p ∈ params, p.1 ≠ "" := by simpa [Tracer.unnamedAt?] using unnamed
        refine (Tracker.keeps_openFrame on owner method stands).returned ?_
        rintro (f | _) u entered
        · exact fun x same => Standing.later entered same
        · have written := Tracker.keeps_trackAll (fun _ _ => ()) (fun _ => Standing.seen)
            (fun p member _ _ => Tracker.keeps_track willing on (Function.update_self ..) (named p member) p.2) ()
            entered
          refine written.returned_mono ?_
          rintro r x ⟨rfl, stands⟩
          exact stands

theorem Monitor.keeps_enter (m : Monitor P) (willing : m.Willing) (on : mine site.thread)
    (owner : Option (Object P.Code)) (method : String) (params : List (String × Object P.Code))
    (stands : Standing mine base busy w) :
    (Guard.enter m site owner method params).Keeps (Lanes mine) (fun _ _ => True)
      (Run.Returned fun r v => Entered mine (m.entered site (.opened owner method) base busy) base busy r v ∧
        ∀ g, r = .ok g → g = ⟨m, method, none⟩) w := by
  refine (m.keeps_entering willing on owner method params stands).returned ?_
  rintro (f | _) v entered
  · exact fun u same => ⟨Standing.later entered same, fun _ none => by cases none⟩
  · exact fun u same => ⟨Standing.later entered same, fun _ now => (Except.ok.inj now).symm⟩

/-- A call is left, and the innermost frame is closed. -/
theorem Monitor.keeps_exiting (m : Monitor P) (on : mine site.thread) (stands : Standing mine base busy w) :
    (m.exiting site).Keeps (Lanes mine) (fun _ _ => True)
      (Run.Returned fun _ => Standing mine (m.left site base busy) busy) w := by
  cases m with
  | silent => exact fun v same => stands.later same
  | active t =>
    refine .look fun v same => ?_
    have stands := stands.later same
    rw [stands.processing t.name site.thread on]
    cases building : busy (t.name, site.thread) with
    | true =>
      simp only [Monitor.left, building, if_true]
      exact fun u same => stands.later same
    | false =>
      simp only [Monitor.left, building, Bool.false_eq_true, if_false]
      intro u same
      exact ⟨trivial, fun x same' => ((stands.later same).closeFrame on).later same'⟩

end

/-! ## Reports -/

theorem Standing.occasion (t : Tracer P) (on : mine thread) (base : TrackerId × Thread → List (Frame P.Code))
    (busy : String × Thread → Bool) :
    Occasion (Lanes mine) t thread fun b => Standing mine base (Function.update busy (t.name, thread) b) where
  seen _ := Standing.seen
  untouched _ := Standing.untouched
  tells stands := (stands.processing t.name thread on).trans (Function.update_self ..)
  turned {b w} r stands := by
    refine ⟨stands.frames, stands.arena, ?_⟩
    -- What other tracers do on the thread, and this one on other threads, stays as it is.
    intro tracer other own
    have before := stands.processing tracer other own
    by_cases same : (tracer, other) = (t.name, thread)
    · rw [same, Function.update_self]
      obtain ⟨rfl, rfl⟩ := Prod.mk.inj same
      simp [World.reportingOf, World.setReporting]
    · rw [Function.update_of_ne same] at before ⊢
      simpa [World.reportingOf, World.setReporting, OrderedMap.get?_insert_of_ne same] using before

section
variable {exec : Exec P} {site : Site} {m : Monitor P}

/-- Whichever tracers build reports, the code maintains what is open. -/
def Upholds (mine : Thread → Prop) (m : Run P α) : Prop :=
  ∀ (base : TrackerId × Thread → List (Frame P.Code)) (busy : String × Thread → Bool),
    m.Maintains (Lanes mine) (Standing mine base busy)

theorem Upholds.onError (on : mine site.thread) (code : ∀ c, Upholds mine (exec site c)) (method : String)
    (e : ErrorRef) : Upholds mine (m.onError exec site method e) := by
  intro base busy
  cases m with
  | silent => exact .pure Standing.seen _
  | active t =>
    -- Whether the tracer builds a report now, `busy` tells.
    have occasion := Standing.occasion t on base busy
    have maintains := Tracer.maintains_onError occasion (fun c => code c base _) method e (busy (t.name, site.thread))
    rwa [Function.update_eq_self] at maintains

theorem Upholds.timeout (on : mine site.thread) (code : ∀ c, Upholds mine (exec site c)) (method : String)
    (thresholdMs actualMs : UInt64) : Upholds mine (m.timeout exec site method thresholdMs actualMs) := by
  intro base busy
  cases m with
  | silent => exact .pure Standing.seen _
  | active t =>
    have occasion := Standing.occasion t on base busy
    have maintains := Tracer.maintains_timeout occasion (fun c => code c base _) method thresholdMs actualMs
      (busy (t.name, site.thread))
    rwa [Function.update_eq_self] at maintains

theorem Guard.keeps_logFailure (method message : String) (r : Except Fault Unit) (stands : Standing mine base busy w) :
    (logFailure method message r).Keeps (Lanes mine) (fun _ _ => True)
      (Run.Returned fun _ => Standing mine base busy) w := by
  cases r with
  | ok => exact fun v same => stands.later same
  | error f =>
    intro v same
    have logged := Standing.untouched v _ rfl (fun _ _ => rfl) (stands.later same)
    exact ⟨trivial, fun u same' => logged.later same'⟩

theorem Upholds.logFailure (method message : String) (r : Except Fault Unit) :
    Upholds (P := P) mine (Guard.logFailure method message r) := by
  intro base busy w stands
  exact (Guard.keeps_logFailure method message r stands).returned_mono fun _ _ stands _ => stands

theorem Upholds.reportResult (on : mine site.thread) (code : ∀ c, Upholds mine (exec site c)) (g : Guard P)
    (result : Except ErrorRef α) : Upholds mine (g.reportResult exec site result) := by
  intro base busy
  cases result with
  | ok a => exact .pure Standing.seen _
  | error e =>
    refine (onError on code g.method e base busy).bind fun reported => ?_
    exact (logFailure g.method _ reported base busy).bind fun _ => .pure Standing.seen _

/-! ## Traced calls -/

theorem Panic.keeps_whileUnwinding {σ : Type} {see : World P → σ} {inv : World P → Prop} {close : Run P Unit}
    (closes : close.Keeps see (fun _ _ => True) (Run.Returned fun _ => inv) w) :
    (whileUnwinding close).Keeps see (fun _ _ => True) (Run.Returned fun _ => inv) w :=
  closes.rescue (fun _ _ closed => closed) fun _ _ never => never.elim

/-- What closes something does so whether a run returns or panics. -/
theorem Panic.keeps_closingAfter {σ : Type} {see : World P → σ} {inside inv : World P → Prop} {m : Run P α}
    {close : Run P Unit} (seen : Run.Seen see inv) (first : m.Maintains see inside)
    (closes : ∀ w, inside w → close.Keeps see (fun _ _ => True) (Run.Returned fun _ => inv) w) (holds : inside w) :
    (closingAfter m close).Keeps see (fun _ _ => True) (fun r v => Run.Survives r → inv v) w := by
  -- A panic goes on after it is closed; a value is returned before that.
  let unwound : Except Interrupt α → World P → Prop := fun r v =>
    (∃ a, r = .ok a ∧ inside v) ∨ ∃ e, r = .error e ∧ (Run.Survives r → inv v)
  rw [closingAfter]
  refine Run.Keeps.bind (show Run.Keeps see (fun _ _ => True) unwound _ w from (first w holds).rescue ?_ ?_) ?_ ?_
  · exact fun a v later => .inl ⟨a, rfl, later trivial⟩
  · intro e v later
    cases e with
    | panic payload =>
      refine (keeps_whileUnwinding (closes v (later trivial))).returned ?_
      exact fun _ u closed x same => .inr ⟨_, rfl, fun _ => seen same closed⟩
    | abort => exact fun u same => .inr ⟨_, rfl, fun survives => survives.elim⟩
    | exhausted => exact fun u same => .inr ⟨_, rfl, fun survives => survives.elim⟩
  · rintro result v (⟨_, _, inside⟩ | ⟨e, none, _⟩)
    · refine (closes v inside).returned ?_
      exact fun _ u closed x same _ => seen same closed
    · cases none
  · rintro e v (⟨a, none, _⟩ | ⟨_, _, closed⟩)
    · cases none
    · exact closed

theorem Guard.keeps_close (on : mine site.thread) {frame : Frame P.Code} {method : String} (elapsedMs : UInt64)
    (stands : Standing mine (m.entered site frame base busy) busy w) :
    ((⟨m, method, none⟩ : Guard P).close exec site elapsedMs).Keeps (Lanes mine) (fun _ _ => True)
      (Run.Returned fun _ => Standing mine base busy) w := by
  have left := m.keeps_exiting on stands
  rw [m.left_entered] at left
  exact left.returned fun r _ stands => keeps_logFailure method _ r stands

theorem Upholds.traced {owner : Option (Object P.Code)} {method : String} {params : List (String × Object P.Code)}
    {body : Guard P → Run P (Except ErrorRef α)} (on : mine site.thread) (willing : m.Willing)
    (code : ∀ c, Upholds mine (exec site c)) (within : ∀ g, Upholds mine (body g)) :
    Upholds mine (traced exec m site owner method params body) := by
  intro base busy w stands
  refine (m.keeps_enter willing on owner method params stands).returned ?_
  rintro (f | g) v ⟨entered, guard⟩
  · exact fun u same => ⟨trivial, fun x same' _ =>
      Standing.later (Standing.untouched u _ rfl (fun _ _ => rfl) (Standing.later entered same)) same'⟩
  · obtain rfl := guard g rfl
    refine Panic.keeps_closingAfter Standing.seen ?_ (fun u stands => Guard.keeps_close on 0 stands) entered
    exact (within _ _ busy).bind fun result => reportResult on code _ result _ busy

end

/-- A program that opens and closes frames by traced calls only maintains what is open. -/
theorem Bracketed.upholds {m : Run P α} (bracketed : Bracketed mine m) : Upholds mine m := by
  induction bracketed with
  | done a => exact fun base busy => .done Standing.seen a
  | stop e => exact fun base busy => .stop Standing.seen e
  | act apart _ rest =>
    exact fun base busy => .act Standing.seen (fun w stands => stands.later (apart w)) fun w => rest w base busy
  | bind _ _ first rest => exact fun base busy => (first base busy).bind fun a => rest a base busy
  | rescue _ _ other first handled =>
    exact fun base busy => (first base busy).rescue (fun payload => handled payload base busy) other
  | traced on willing _ _ code within => exact .traced on willing code within
  | valueChange on => exact fun base busy => Monitor.maintains_valueChange _ on _ _
  | onError on _ code => exact .onError on code _ _
  | timeout on _ code => exact .timeout on code _ _ _

/-! ## Panics -/

namespace Bracketed

section
variable {exec : Exec P} {site : Site}

/-- An own step with an answer. -/
theorem step {f : World P → α × World P} (apart : ∀ w, Lanes mine (f w).2 = Lanes mine w) :
    Bracketed mine (modifyGet f : Run P α) :=
  .act apart fun w => .done (f w).1

theorem forM {γ : Type} {f : γ → Run P Unit} {items : List γ} (each : ∀ item, Bracketed mine (f item)) :
    Bracketed mine (items.forM f) := by
  induction items with
  | nil => exact .done ()
  | cons item items ih => exact .bind (each item) fun _ => ih

/-- The hooks of a panic report it, and the panic goes on. -/
theorem raise (on : mine site.thread) (code : ∀ c, Bracketed mine (exec site c)) (hooks : List (Monitor P))
    (payload : PanicPayload) (location : Option String) :
    Bracketed mine (Panic.raise exec hooks site payload location : Run P α) := by
  have reported : ∀ e hook, Bracketed mine (Panic.report exec site e hook) := by
    intro e hook
    refine .bind (step fun _ => rfl) fun error => .bind (.onError on code) fun result => ?_
    cases result with
    | ok => exact .done ()
    | error f => exact step fun _ => rfl
  refine .bind (.act (fun _ => rfl) fun w => .done w) fun w => ?_
  dsimp only
  split
  · exact .stop _
  · refine .bind (step fun _ => rfl) fun _ => .bind ?_ fun _ => .bind (step fun _ => rfl) fun _ => .stop _
    exact .bind (forM (reported _)) fun _ => step fun _ => rfl

/-- A panic is caught, and the program goes on. -/
theorem catching {m : Run P α} (bracketed : Bracketed mine m) (thread : Thread) :
    Bracketed mine (Panic.catching thread m) := by
  refine .rescue (.bind bracketed fun a => .done _) ?_ ?_
  · exact fun payload => .bind (step fun _ => rfl) fun _ => .done _
  · intro e other
    cases e with
    | panic payload => exact absurd rfl (other payload)
    | abort => rfl
    | exhausted => rfl

end

end Bracketed

/-- Let a program that opens and closes frames by traced calls only be run in any reached state,
    whichever tracers build reports then. When it has returned, or ended with a panic, every tracker
    has on its threads just the frames that were open at the start, each with its owner, its method
    and at least its variables. -/
theorem Bracketed.same_frames {ι : Type} [DecidableEq ι] {crew : List String} {owner : Thread → ι} {q : Pool P ι}
    {m : Run P α} {r : Except Interrupt α} {v : World P} (reached : q.Reached crew owner)
    (bracketed : Bracketed mine m) (ends : m.Ends (Lanes mine) q.world r v) (survives : Run.Survives r)
    (tracker : TrackerId) (thread : Thread) (on : mine thread) :
    List.Forall₂ Frame.Continues (q.world.memory.stack (tracker, thread)).toList
      (v.memory.stack (tracker, thread)).toList := by
  have stands := (bracketed.upholds _ _ q.world (Standing.now reached.made)).ends ends survives
  exact stands.frames (tracker, thread) on

namespace Sample

/-- A traced call inside another one panics. The outer one catches that and panics itself. -/
def interrupted : Run program (Traced Unit) :=
  traced exec (.active tracer) site none "outer" [("order", ⟨0, .text "A-17"⟩)] fun g => do
    discard (g.reportError exec site error)
    discard (Panic.catching site.thread (traced (α := Unit) exec (.active tracer) site none "inner" [] fun _ =>
      Panic.raise exec [.active tracer] site (.literal "gone") none))
    throw (.panic .other)

theorem bracketed_exec (site : Site) (c : program.Code) : Bracketed (· = "main") (exec site c) := by
  have called : Bracketed (· = "main")
      ((Monitor.active tracer).onError (fun _ _ => pure ()) Sample.site "inner" error) := by
    refine .onError rfl ?_
    exact fun _ => .done ()
  exact .bind called fun _ => .done _

theorem bracketed_interrupted : Bracketed (· = "main") interrupted := by
  have on : site.thread = "main" := rfl
  refine .traced on rfl (bracketed_exec site) fun g => ?_
  refine .bind (.bind (.onError on (bracketed_exec site)) fun _ => .done _) fun _ => .bind ?_ fun _ => .stop _
  refine .bind (Bracketed.catching ?_ _) fun _ => .done _
  refine .traced on rfl (bracketed_exec site) fun _ => ?_
  exact .raise on (bracketed_exec site) _ _ _

/-- The call of a method is entered. -/
def entering : Pool program Unit :=
  ⟨fun _ => tracer.call exec site (.entering none "run" []) >>= fun _ => pure (), start⟩

/-- The method has its frame. -/
def underway : Pool program Unit :=
  ⟨Function.update entering.strand () ((entering.strand ()).after start 2).1, ((entering.strand ()).after start 2).2⟩

theorem reached_underway : underway.Reached ["tracer"] fun _ => () := by
  refine ⟨⟨0, 0⟩, start.stamp, (), entering.strand, fun _ => ?_, Pool.reaches_after entering () 2⟩
  have entered : Conduct ["tracer"] (fun _ => () = ()) (tracer.call exec site (.entering none "run" [])) :=
    Tracer.conduct_call (by decide) rfl (conductCode_exec rfl)
  exact .bind entered fun _ => .done ()

end Sample

open Sample in
/-- A panic passes through a traced call, and the frame below is open still. -/
theorem Bracketed.same_frames_sample :
    ∃ v, interrupted.Ends (Lanes (· = "main")) underway.world (.error (.panic .other)) v ∧
      (v.memory.stack (.own "tracer", "main")).toList.map Frame.method = [some "run"] := by
  have ended : ∃ v, interrupted.run underway.world = .error (.panic .other) v := ⟨_, rfl⟩
  obtain ⟨v, executed⟩ := ended
  have ends : interrupted.Ends (Lanes (· = "main")) underway.world (.error (.panic .other)) v := .of_run_error executed
  have same := Bracketed.same_frames reached_underway bracketed_interrupted ends trivial (.own "tracer") "main" rfl
  have opened : (underway.world.memory.stack (.own "tracer", "main")).toList = [.opened none "run"] := rfl
  rw [opened] at same
  obtain ⟨f, rest, continues, none, eq⟩ := List.forall₂_cons_left_iff.mp same
  rw [List.forall₂_nil_left_iff.mp none] at eq
  refine ⟨v, ends, ?_⟩
  rw [eq, List.map_singleton, continues.method]
  rfl

end FaultSnapshot
