import FaultSnapshot.Proofs.Inheritance
import FaultSnapshot.Proofs.Interleaving

/-!
# What runs maintain

A run maintains a property of the world if the property holds again whenever the run returns or ends
with a panic, whatever others change in between that is not seen. A call that may make a report
passes through two properties, one for the time when no report is built and one for the time of the
report; if the code that runs in between maintains the latter, the call maintains the former
(`Tracer.maintains_onError`, `Tracer.maintains_timeout`).
-/

namespace FaultSnapshot

variable {P : Program} {α β σ : Type}

namespace Run

/-- The program goes on: the run has returned, or it has ended with a panic. -/
def Survives : Except Interrupt α → Prop
  | .ok _ => True
  | .error (.panic _) => True
  | .error _ => False

/-- The property depends only on what is seen. -/
def Seen (see : World P → σ) (inv : World P → Prop) : Prop := ∀ {v w}, see v = see w → inv w → inv v

/-- If the property holds at the start, it holds at the end, unless that is the end of the program. -/
def Maintains (see : World P → σ) (inv : World P → Prop) (m : Run P α) : Prop :=
  ∀ w, inv w → m.Keeps see (fun _ _ => True) (fun r v => Survives r → inv v) w

section
variable {see : World P → σ} {g : World P → α} {k : α → Run P β} {w : World P}
variable {post : Except Interrupt β → World P → Prop}

/-- A look at the world leaves it as it is. -/
theorem Keeps.look_still {guar : World P → World P → Prop} (still : ∀ v, guar v v)
    (rest : ∀ v, see v = see w → (k (g v)).Keeps see guar post v) :
    ((do return g (← get)) >>= k).Keeps see guar post w :=
  fun v same => ⟨still v, rest v same⟩

/-- A look at the world, and what comes after it. -/
theorem Keeps.look (rest : ∀ v, see v = see w → (k (g v)).Keeps see (fun _ _ => True) post v) :
    ((do return g (← get)) >>= k).Keeps see (fun _ _ => True) post w :=
  look_still (fun _ => trivial) rest

end

namespace Maintains

variable {see : World P → σ} {inv : World P → Prop}

theorem done (seen : Seen see inv) (a : α) : (Run.done a : Run P α).Maintains see inv :=
  fun _ holds _ same _ => seen same holds

theorem stop (seen : Seen see inv) (e : Interrupt) : (Run.stop e : Run P α).Maintains see inv :=
  fun _ holds _ same _ => seen same holds

theorem act (seen : Seen see inv) {change : World P → World P} {next : World P → Run P α}
    (changed : ∀ w, inv w → inv (change w)) (rest : ∀ w, (next w).Maintains see inv) :
    (Run.act change next).Maintains see inv :=
  fun _ holds v same => ⟨trivial, rest v _ (changed v (seen same holds))⟩

theorem bind {m : Run P α} {k : α → Run P β} (first : m.Maintains see inv) (rest : ∀ a, (k a).Maintains see inv) :
    (m >>= k).Maintains see inv := by
  intro w holds
  refine (first w holds).bind ?_ ?_
  · intro a v later
    exact rest a v (later trivial)
  · intro e v later survives
    cases e with
    | panic payload => exact later trivial
    | abort => exact survives.elim
    | exhausted => exact survives.elim

/-- A handler that lets all but panics pass. -/
theorem rescue {m : Run P α} {handle : Interrupt → Run P α} (first : m.Maintains see inv)
    (handled : ∀ payload, (handle (.panic payload)).Maintains see inv)
    (other : ∀ e, (∀ payload, e ≠ .panic payload) → handle e = .stop e) :
    (tryCatch m handle).Maintains see inv := by
  intro w holds
  refine (first w holds).rescue ?_ ?_
  · intro a v later survives
    exact later survives
  · intro e v later
    cases e with
    | panic payload => exact handled payload v (later trivial)
    | abort =>
      rw [other .abort (by simp)]
      exact fun u same survives => survives.elim
    | exhausted =>
      rw [other .exhausted (by simp)]
      exact fun u same survives => survives.elim

theorem pure (seen : Seen see inv) (a : α) : (Pure.pure a : Run P α).Maintains see inv := done seen a

theorem step (seen : Seen see inv) {f : World P → α × World P} {k : α → Run P β} (changed : ∀ w, inv w → inv (f w).2)
    (rest : ∀ a, (k a).Maintains see inv) : (modifyGet f >>= k).Maintains see inv :=
  act seen changed fun w => rest (f w).1

theorem read (seen : Seen see inv) {g : World P → α} {k : α → Run P β} (rest : ∀ a, (k a).Maintains see inv) :
    ((do return g (← get)) >>= k).Maintains see inv :=
  act seen (fun _ holds => holds) fun w => rest (g w)

/-- A look at something that the property tells, and what comes after it. -/
theorem read_eq (seen : Seen see inv) {g : World P → α} {k : α → Run P β} (a : α) (tells : ∀ w, inv w → g w = a)
    (rest : (k a).Maintains see inv) : ((do return g (← get)) >>= k).Maintains see inv := by
  intro w holds
  refine .look fun v same => ?_
  have now := seen same holds
  rw [tells v now]
  exact rest v now

end Maintains

end Run

open Run (Maintains)

/-- The property is not touched by steps that leave the memory and all that tracers know alone. -/
def Untouched (inv : World P → Prop) : Prop :=
  ∀ w v : World P, v.memory = w.memory →
    (∀ tracer thread, v.reportingOf tracer thread = w.reportingOf tracer thread) → inv w → inv v

/-- Variables are written one after another: each write finds what the one before it has left. -/
theorem Tracker.keeps_trackAll {ι : Type} {see : World P → σ} {inv : ι → World P → Prop} {tracker : Tracker}
    {thread : Thread} {params : List (String × Object P.Code)} (next : ι → String × Object P.Code → ι)
    (seen : ∀ i, Run.Seen see (inv i))
    (each : ∀ p ∈ params, ∀ i w, inv i w → (tracker.track thread p.1 p.2).Keeps see (fun _ _ => True)
      (Run.Returned fun r v => r = .ok () ∧ inv (next i p) v) w)
    (i : ι) {w : World P} (holds : inv i w) :
    (tracker.trackAll thread params).Keeps see (fun _ _ => True)
      (Run.Returned fun r v => r = .ok () ∧ inv (params.foldl next i) v) w := by
  induction params generalizing i w with
  | nil => exact fun v same => ⟨rfl, seen i same holds⟩
  | cons p params ih =>
    refine (each p List.mem_cons_self i w holds).returned ?_
    rintro r v ⟨rfl, holds⟩
    exact ih (fun p member => each p (List.mem_cons_of_mem _ member)) _ holds

/-! ## Reports -/

/-- A property for the time between the reports of a tracer on a thread, and one for the time of a
    report. They tell which of the two it is. -/
structure Occasion (see : World P → σ) (t : Tracer P) (thread : Thread) (inv : Bool → World P → Prop) : Prop where
  seen : ∀ busy, Run.Seen see (inv busy)
  untouched : ∀ busy, Untouched (inv busy)
  tells : ∀ {busy : Bool} {w : World P}, inv busy w → (w.reportingOf t.name thread).processing = busy
  turned : ∀ {busy : Bool} {w : World P} (r : Reporting), inv busy w → inv r.processing (w.setReporting t.name thread r)

/-- Whether a report is built or not, the property passes from code to the parts of a report. -/
theorem Occasion.carried {see : World P → σ} {t : Tracer P} {thread : Thread} {inv : Bool → World P → Prop}
    (occasion : Occasion see t thread inv) (busy : Bool) : Carried fun m => m.Maintains see (inv busy) where
  done := .done (occasion.seen busy)
  act {_ change _} aside rest := by
    refine .act (occasion.seen busy) (fun w holds => ?_) rest
    exact occasion.untouched busy w (change w) (aside.beside.memory w) (aside.known w) holds
  bind first rest := first.bind rest

namespace Tracer

variable {see : World P → σ} {t : Tracer P} {exec : Exec P} {site : Site} {inv : Bool → World P → Prop}

section
variable (occasion : Occasion see t site.thread inv) (code : ∀ c, (exec site c).Maintains see (inv true))
include occasion

/-- While a report of the tracer is built, a call about an error or a timeout only logs something. -/
theorem maintains_ignored {message : String} {words : Wording} {rest : Run P (Except Fault Unit)} :
    (do
      if ← t.isProcessing site.thread then
        log .debug message words.ignored
        return .ok ()
      rest : Run P (Except Fault Unit)).Maintains see (inv true) := by
  refine .read_eq (occasion.seen true) true (fun _ holds => occasion.tells holds) ?_
  exact (occasion.carried true).note (.pure (occasion.seen true) _)

include code

theorem maintains_offer (method : String) (trigger : Trigger) (remembered : Option ErrorRef) (words : Wording) :
    (t.offer exec site method trigger remembered words).Maintains see (inv false) := by
  intro w holds
  refine Run.Keeps.step ?_
  intro v same
  refine ⟨trivial, ?_⟩
  have now : inv false v := occasion.seen false same holds
  have asked : ∀ e : Event, inv false ((v.ask t.throttle).2.note e) := by
    intro e
    refine occasion.untouched false v _ ?_ ?_ now
    · cases t.throttle <;> rfl
    · intro tracer thread
      cases t.throttle <;> rfl
  cases decision : (v.ask t.throttle).1 with
  | false =>
    simp only [decision, Bool.false_eq_true, if_false]
    exact (occasion.carried false).note (.pure (occasion.seen false) _) _ (asked _)
  | true =>
    simp only [decision, if_true]
    -- The report starts here, and however it is left, it ends.
    have started := occasion.turned (⟨true, remembered⟩ : Reporting) (asked (.asked t.name site.thread trigger true))
    refine (carries_build (occasion.carried true) code method trigger words _ started).ensuring ?_
    intro r u later
    refine ⟨trivial, ?_⟩
    intro x same survives
    have ready := occasion.turned (⟨false, (u.reportingOf t.name site.thread).remembered⟩ : Reporting) (later survives)
    exact occasion.seen false same (occasion.untouched false (u.setReporting ..) _ rfl (fun _ _ => rfl) ready)

/-- A call about an error maintains the property for the time at which it is made. -/
theorem maintains_onError (method : String) (e : ErrorRef) (busy : Bool) :
    (t.onError exec site method e).Maintains see (inv busy) := by
  cases busy with
  | true => exact maintains_ignored occasion
  | false =>
    have counted : ∀ w : World P, inv false w → inv false { w with triggers := w.triggers + 1 } := fun w holds =>
      occasion.untouched false w _ rfl (fun _ _ => rfl) holds
    refine .read_eq (occasion.seen false) false (fun _ holds => occasion.tells holds) ?_
    refine .read (occasion.seen false) ?_
    intro propagating
    split
    · exact (occasion.carried false).note (.pure (occasion.seen false) _)
    · exact .step (occasion.seen false) counted fun trigger => maintains_offer occasion code _ _ _ _

theorem maintains_timeout (method : String) (thresholdMs actualMs : UInt64) (busy : Bool) :
    (t.timeout exec site method thresholdMs actualMs).Maintains see (inv busy) := by
  cases busy with
  | true => exact maintains_ignored occasion
  | false =>
    have counted : ∀ w : World P, inv false w → inv false { w with triggers := w.triggers + 1 } := fun w holds =>
      occasion.untouched false w _ rfl (fun _ _ => rfl) holds
    refine .read_eq (occasion.seen false) false (fun _ holds => occasion.tells holds) ?_
    exact .step (occasion.seen false) counted fun trigger => maintains_offer occasion code _ _ _ _

end

end Tracer

end FaultSnapshot
