import FaultSnapshot.Proofs.Histories
import FaultSnapshot.Proofs.Reliance

/-!
# Refused entries

A tracker may refuse a method or a variable. An entry that is refused for its method, or because a
parameter has no name, opens no frame. An entry that is refused for one of its variables is refused
late: its frame stays open and holds the parameters before that one (`Pool.Reached.refused_entry`).
-/

namespace FaultSnapshot

variable {P : Program}

/-- Why the entry of a call is refused, and the frames that are open then, where those of `before`
    were open. -/
inductive Refusal {Code : Type} (t : Tracker) (owner : Option (Object Code)) (method : String)
    (params : List (String × Object Code)) (before : List (Picture Code)) : Fault → List (Picture Code) → Prop
  | unnamed {position : Nat} (found : params.findIdx? (·.1 = "") = some position) :
      Refusal t owner method params before (.emptyParameter position method) before
  | method (named : ∀ p ∈ params, p.1 ≠ "") (refused : method ∈ t.refusedMethods) :
      Refusal t owner method params before (.refusedMethod method) before
  | variable {written rest : List (String × Object Code)} {name : String} {value : Object Code}
      (named : ∀ p ∈ params, p.1 ≠ "") (accepted : method ∉ t.refusedMethods)
      (order : params = written ++ (name, value) :: rest) (first : ∀ p ∈ written, p.1 ∉ t.refusedVariables)
      (refused : name ∈ t.refusedVariables) :
      Refusal t owner method params before (.refusedVariable name)
        (⟨owner, method, (OrderedMap.ofList written).entries⟩ :: before)

/-! ## Frames as activations -/

namespace Activation

variable {Code : Type}

/-- The writes to a frame, in order, are the variables of its picture. -/
theorem vars_picture (owner : Option (Object Code)) (method : String) (writes : List (String × Object Code)) :
    (⟨owner, method, writes⟩ : Activation Code).picture = ⟨owner, method, (OrderedMap.ofList writes).entries⟩ := by
  induction writes using List.reverseRecOn with
  | nil => rfl
  | append_singleton writes e ih =>
    have written := picture_write ⟨owner, method, writes⟩ e.1 e.2
    rw [ih] at written
    rw [OrderedMap.ofList_concat]
    exact written

/-- A picture in which no name comes twice is that of a frame to which its variables were written. -/
theorem picture_of_vars {p : Picture Code} (nodup : (p.vars.map Prod.fst).Nodup) :
    (⟨p.owner, p.method, p.vars⟩ : Activation Code).picture = p := by
  rw [vars_picture, OrderedMap.ofList_entries ⟨p.vars, nodup⟩]

end Activation

namespace Memory

variable {Code : Type} {m : Memory Code} {key : TrackerId × Thread}

/-- Whatever a tracker shows can be taken as written variable by variable. -/
theorem Sound.shows (sound : m.Sound key) : ∃ frames, m.Shows key frames := by
  refine ⟨(m.pictures key).map fun p => ⟨p.owner, p.method, p.vars⟩, sound, ?_⟩
  rw [List.map_map]
  refine (List.map_id _).symm.trans (List.map_congr_left ?_)
  intro p member
  obtain ⟨v, _, rfl⟩ := List.mem_map.mp member
  exact (Activation.picture_of_vars (nodup_contents v.vars.nodup)).symm

end Memory

/-! ## Entries -/

namespace Tracer

variable {t : Tracer P} {thread : Thread} {frames : List (Activation P.Code)} {w v : World P}

/-- Named parameters that are written to an open frame leave one frame more. -/
theorem foldl_track (owner : Option (Object P.Code)) (method : String) (frames : List (Activation P.Code))
    {params : List (String × Object P.Code)} (named : ∀ p ∈ params, p.1 ≠ "") :
    params.foldl (fun frames p => (FrameCall.track p.1 p.2).onto frames) (⟨owner, method, []⟩ :: frames) =
      ⟨owner, method, params⟩ :: frames := by
  induction params using List.reverseRecOn with
  | nil => rfl
  | append_singleton params p ih =>
    have named_before : ∀ p ∈ params, p.1 ≠ "" := fun p member => named p (List.mem_append_left _ member)
    have last : p.1 ≠ "" := named p (List.mem_append_right _ (List.mem_singleton_self p))
    rw [List.foldl_append, ih named_before]
    simp [FrameCall.onto, FrameCall.written, last, Activation.write]

theorem trackAll_append (t : Tracker) (thread : Thread) (before after : List (String × Object P.Code)) :
    t.trackAll thread (before ++ after) = (do
      match ← t.trackAll thread before with
      | .ok () => t.trackAll thread after
      | .error f => return .error f : Run P (Except Fault Unit)) := by
  induction before with
  | nil => rfl
  | cons p before ih =>
    rw [List.cons_append, Tracker.trackAll, Tracker.trackAll, bind_assoc]
    congr 1
    funext r
    cases r with
    | ok => exact ih
    | error f => rfl

/-- The variables are written up to the first one that is refused. -/
theorem keeps_trackAll_refused {owner : Option (Object P.Code)} {method : String}
    {written rest : List (String × Object P.Code)} {name : String} {value : Object P.Code}
    (named : ∀ p ∈ written, p.1 ≠ "") (first : ∀ p ∈ written, p.1 ∉ t.tracker.refusedVariables)
    (refused : name ∈ t.tracker.refusedVariables)
    (displays : t.Displays thread false (⟨owner, method, []⟩ :: frames) w) :
    (t.tracker.trackAll thread (written ++ (name, value) :: rest)).Keeps (t.live thread) (fun _ _ => True)
      (Run.Returned fun r v => r = .error (.refusedVariable name) ∧
        t.Displays thread false (⟨owner, method, written⟩ :: frames) v) w := by
  rw [trackAll_append]
  refine (keeps_parameters first named (List.cons_ne_nil _ _) displays).returned ?_
  rintro r u ⟨rfl, displays⟩
  rw [foldl_track owner method frames named] at displays
  rw [Tracker.trackAll, Tracker.track, if_pos refused]
  intro v same
  exact ⟨rfl, displays.later same⟩

/-- The entry is refused, and the frames that are open then are those of its refusal. -/
def Refuses (t : Tracer P) (thread : Thread) (owner : Option (Object P.Code)) (method : String)
    (params : List (String × Object P.Code)) (before : List (Picture P.Code)) (r : Except Fault Unit) (v : World P) :
    Prop :=
  ∀ f, r = .error f → Refusal t.tracker owner method params before f (v.memory.pictures (t.tracker.id, thread))

theorem refuses_ok {owner : Option (Object P.Code)} {method : String} {params : List (String × Object P.Code)}
    {before : List (Picture P.Code)} : t.Refuses thread owner method params before (.ok ()) v :=
  fun _ none => nomatch none

/-- A call is entered while no report is built. -/
theorem keeps_opening {owner : Option (Object P.Code)} {method : String} {params : List (String × Object P.Code)}
    (named : ∀ p ∈ params, p.1 ≠ "") (displays : t.Displays thread false frames w) :
    (do
      match ← t.tracker.openFrame thread owner method with
      | .ok () => t.tracker.trackAll thread params
      | .error f => return .error f : Run P (Except Fault Unit)).Keeps (t.live thread) (fun _ _ => True)
        (Run.Returned (t.Refuses thread owner method params (frames.map Activation.picture))) w := by
  by_cases method_refused : method ∈ t.tracker.refusedMethods
  · rw [Tracker.openFrame, if_pos method_refused]
    rintro v same f ⟨⟩
    rw [(displays.later same).shows.pictures]
    exact .method named method_refused
  · refine (keeps_openFrame owner method_refused displays).returned ?_
    rintro r u ⟨rfl, displays⟩
    cases found : params.find? (·.1 ∈ t.tracker.refusedVariables) with
    | none =>
      have accepted : ∀ p ∈ params, p.1 ∉ t.tracker.refusedVariables := by
        simpa using List.find?_eq_none.mp found
      refine (keeps_parameters accepted named (List.cons_ne_nil _ _) displays).returned_mono ?_
      rintro r v ⟨rfl, _⟩
      exact refuses_ok
    | some p =>
      obtain ⟨refused, written, rest, order, first⟩ := List.find?_eq_some_iff_append.mp found
      have refused : p.1 ∈ t.tracker.refusedVariables := by simpa using refused
      have first : ∀ p ∈ written, p.1 ∉ t.tracker.refusedVariables := by simpa using first
      have named_written : ∀ p ∈ written, p.1 ≠ "" := by
        intro p member
        refine named p ?_
        rw [order]
        exact List.mem_append_left _ member
      have late : (t.tracker.trackAll thread (written ++ p :: rest)).Keeps _ _ _ _ :=
        keeps_trackAll_refused named_written first refused displays
      rw [← order] at late
      refine late.returned_mono ?_
      rintro r v ⟨rfl, displays⟩ f ⟨⟩
      rw [displays.shows.pictures, List.map_cons, Activation.vars_picture]
      exact .variable named method_refused order first refused

theorem keeps_entry {busy : Bool} {site : Site} (owner : Option (Object P.Code)) (method : String)
    (params : List (String × Object P.Code)) (displays : t.Displays site.thread busy frames w) :
    (t.entering site owner method params).Keeps (t.live site.thread) (fun _ _ => True)
      (Run.Returned (t.Refuses site.thread owner method params (frames.map Activation.picture))) w := by
  cases busy with
  | true =>
    refine .look fun v same => ?_
    rw [(displays.later same).processing]
    exact fun u same => refuses_ok
  | false =>
    refine keeps_idle displays fun v displays => ?_
    cases unnamed : unnamedAt? params with
    | some position =>
      rintro u same f ⟨⟩
      rw [(displays.later same).shows.pictures]
      exact .unnamed unnamed
    | none =>
      have named : ∀ p ∈ params, p.1 ≠ "" := by simpa [unnamedAt?] using unnamed
      exact keeps_opening named displays

end Tracer

/-! ## Guards and traced calls -/

section
variable {α σ : Type} {see : World P → σ} {t : Tracer P} {site : Site} {owner : Option (Object P.Code)}
variable {method : String} {params : List (String × Object P.Code)} {exec : Exec P} {w v : World P}

theorem Panic.yields_closingAfter {holds : α → Prop} {m : Run P α} {close : Run P Unit} (yields : m.Yields holds) :
    (closingAfter m close).Yields holds := by
  unfold closingAfter
  refine (yields.rescue ?_).bind ?_
  · intro e
    cases e with
    | panic payload => exact (Run.Yields.trivial _).bind fun _ _ => trivial
    | abort => trivial
    | exhausted => trivial
  · intro a holds_a
    exact (Run.Yields.trivial _).bind fun _ _ => holds_a

/-- Where a frame was opened, the traced call is not refused. -/
theorem traced_entered (g : Guard P) (body : Guard P → Run P (Except ErrorRef α)) :
    (Panic.closingAfter (do g.reportResult exec site (← body g)) (g.close exec site 0)).Yields
      fun result => ∀ e, result ≠ .refused e := by
  refine Panic.yields_closingAfter ((Run.Yields.trivial _).bind ?_)
  intro result _
  cases result with
  | ok a => exact nofun
  | error e => exact (Run.Yields.trivial _).bind fun _ _ => (Run.Yields.trivial _).bind fun _ _ => nofun

/-- A guard is refused as its entry is. -/
theorem Guard.of_enter_error {f : Fault}
    (ends : (Guard.enter (.active t) site owner method params).Ends see w (.ok (.error f)) v) :
    (t.entering site owner method params).Ends see w (.ok (.error f)) v := by
  obtain ⟨r, u, entered, rest⟩ | ⟨_, none, _⟩ := Run.Ends.of_bind ends
  · cases r with
    | ok => exact nomatch rest
    | error f' =>
      cases rest with
      | rest seen => exact entered.trans (.rest seen)
  · cases none

/-- A traced call is refused as its guard is, whatever its body is. -/
theorem traced_refused {body : Guard P → Run P (Except ErrorRef α)} {e : ErrorRef}
    (ends : (traced exec (.active t) site owner method params body).Ends see w (.ok (.refused e)) v) :
    ∃ f u, (Guard.enter (.active t) site owner method params).Ends see w (.ok (.error f)) u ∧
      (do return Traced.refused (← Run.newError (.fault f)) : Run P (Traced α)).Ends see u (.ok (.refused e)) v := by
  obtain ⟨r, u, entered, rest⟩ | ⟨_, none, _⟩ := Run.Ends.of_bind ends
  · cases r with
    | error f => exact ⟨f, u, entered, rest⟩
    | ok g => exact absurd rfl ((traced_entered g body).goes rest e)
  · cases none

end

/-- Let a call be entered in any reached state, with any source, method and parameters. If the entry
    is refused, the frames that were open are open still, with what their variables held; if it is
    refused for a variable, there is one frame more, of the call itself, that holds the parameters
    before that one, and otherwise there is none more. A guard is refused for the same reasons, with
    the same frames; so is a traced call, and then its body has no part in what happens. -/
theorem Pool.Reached.refused_entry {ι : Type} [DecidableEq ι] {crew : List String} {place : Thread → ι} {q : Pool P ι}
    (reached : q.Reached crew place) (t : Tracer P) (site : Site) (owner : Option (Object P.Code)) (method : String)
    (params : List (String × Object P.Code)) :
    (∀ r v, (t.entering site owner method params).Ends (t.live site.thread) q.world r v →
      ∃ result, r = .ok result ∧ t.Refuses site.thread owner method params
        (q.world.memory.pictures (t.tracker.id, site.thread)) result v) ∧
      (∀ f v, (Guard.enter (.active t) site owner method params).Ends (t.live site.thread) q.world (.ok (.error f)) v →
        t.Refuses site.thread owner method params (q.world.memory.pictures (t.tracker.id, site.thread)) (.error f) v) ∧
      ∀ (α : Type) (exec : Exec P) (body : Guard P → Run P (Except ErrorRef α)) (e : ErrorRef) (v : World P),
        (traced exec (.active t) site owner method params body).Ends (t.live site.thread) q.world (.ok (.refused e)) v →
        (∃ f, e.error = .fault f ∧ t.Refuses site.thread owner method params
          (q.world.memory.pictures (t.tracker.id, site.thread)) (.error f) v) ∧
        ∀ body' : Guard P → Run P (Except ErrorRef α), (traced exec (.active t) site owner method params body').Ends
          (t.live site.thread) q.world (.ok (.refused e)) v := by
  obtain ⟨frames, shows⟩ := (reached.made.sound (t.tracker.id, site.thread)).shows
  have displays : t.Displays site.thread (q.world.reportingOf t.name site.thread).processing frames q.world :=
    ⟨shows, rfl⟩
  have entry := Tracer.keeps_entry owner method params displays
  rw [← shows.pictures] at entry
  refine ⟨?_, ?_, ?_⟩
  · rintro (e | result) v ends
    · exact (entry.ends ends).elim
    · exact ⟨result, rfl, entry.ends ends⟩
  · intro f v ends
    exact entry.ends (Guard.of_enter_error ends)
  · intro α exec body e v ends
    obtain ⟨f, u, entered, named⟩ := traced_refused ends
    have refuses := entry.ends (Guard.of_enter_error entered)
    refine ⟨?_, fun body' => entered.bind.trans named⟩
    -- The error object is made after the refusal, which leaves the frames alone.
    have made : (do return Traced.refused (← Run.newError (.fault f)) : Run P (Traced α)).Keeps (t.live site.thread)
        (fun _ _ => True) (Run.Returned fun r x => (∃ n, r = .refused ⟨n, .fault f⟩) ∧
          x.memory.pictures (t.tracker.id, site.thread) = u.memory.pictures (t.tracker.id, site.thread)) u := by
      intro x seen
      refine ⟨trivial, fun y later => ⟨⟨_, rfl⟩, ?_⟩⟩
      have same : t.live site.thread y = t.live site.thread u := later.trans seen
      exact congrArg (fun live => live.1.1) same
    obtain ⟨⟨n, error⟩, pictures⟩ := made.ends named
    cases error
    refine ⟨f, rfl, ?_⟩
    rw [Tracer.Refuses, pictures]
    exact refuses

namespace Sample

/-- A tracer whose tracker refuses a variable. -/
def reluctant : Tracer program := { tracer with tracker := ⟨.own "tracer", [], ["order"]⟩ }

/-- Parameters of which the second is refused. -/
def order : List (String × Object program.Code) := [("user", ⟨0, .text "ada"⟩), ("order", ⟨1, .text "A-17"⟩)]

end Sample

open Sample in
/-- A refused entry does not always leave the frames as they were. -/
theorem Tracer.refused_entry_opens : ¬ ∀ (t : Tracer program) (owner : Option (Object program.Code)) (method : String)
    (params : List (String × Object program.Code)) (f : Fault) (v : World program),
    (t.entering site owner method params).run start = .ok (.error f) v →
      v.memory.pictures (t.tracker.id, site.thread) = start.memory.pictures (t.tracker.id, site.thread) := by
  intro undone
  have ended : ∃ v, (reluctant.entering site none "run" order).run start = .ok (.error (.refusedVariable "order")) v ∧
      (v.memory.pictures (.own "tracer", "main")).length = 1 := ⟨_, rfl, rfl⟩
  obtain ⟨v, executed, one⟩ := ended
  have none := undone reluctant none "run" order _ v executed
  have zero := congrArg List.length none
  exact absurd (one.symm.trans zero) (by decide)

open Sample in
/-- The second parameter is refused after the first one was written. -/
theorem Pool.Reached.refused_entry_sample :
    ∃ v, (reluctant.entering site none "run" order).Ends (reluctant.live "main") start
        (.ok (.error (.refusedVariable "order"))) v ∧
      Refusal reluctant.tracker none "run" order [] (.refusedVariable "order")
        (v.memory.pictures (.own "tracer", "main")) := by
  have reached : Pool.Reached (P := program) ["tracer"] (fun _ => ()) ⟨fun _ => pure (), start⟩ :=
    Pool.reached_start (P := program) ⟨0, 0⟩ start.stamp ()
  have ended : ∃ v, (reluctant.entering site none "run" order).run start =
      .ok (.error (.refusedVariable "order")) v := ⟨_, rfl⟩
  obtain ⟨v, executed⟩ := ended
  have ends : (reluctant.entering site none "run" order).Ends (reluctant.live "main") start
      (.ok (.error (.refusedVariable "order"))) v := .of_run executed
  obtain ⟨entry, _⟩ := reached.refused_entry reluctant site none "run" order
  obtain ⟨result, same, refuses⟩ := entry _ v ends
  cases same
  exact ⟨v, ends, refuses _ rfl⟩

end FaultSnapshot
