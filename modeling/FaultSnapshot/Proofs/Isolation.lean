import FaultSnapshot.Proofs.SimulationAlone
import FaultSnapshot.Proofs.Processing

/-!
# Threads by themselves

Strands make calls on threads, and the code of a call may make calls on other threads while its own
thread waits. A thread has one call at a time, and a ledger keeps all calls with how they ended. If no
part of a tracer has a state of its own, then the calls of each thread end as they do alone, and they
leave the thread as it is left then (`Pool.isolated`).
-/

namespace FaultSnapshot

variable {Code ι κ α β : Type}

/-- How a call ended. -/
abbrev Conclusion := Except Interrupt (Except Fault Unit)

/-- Which strand has a call under way on a thread, and the calls that were made there, with how they
    ended. -/
structure Ledger (ι κ : Type) where
  holder : Thread → Option ι
  calls : Thread → List (κ × Conclusion)

def Ledger.empty : Ledger ι κ := ⟨fun _ => none, fun _ => []⟩

/-- Programs that keep nothing but the ledger of their calls. -/
abbrev Booked (Code ι κ : Type) : Program := ⟨Code, Ledger ι κ⟩

/-- A call of hooks in such a program. -/
abbrev BookedCall (Code ι κ : Type) : Type := Run (Booked Code ι κ) (Except Fault Unit)

namespace World

/-- The strand begins a call on the thread. -/
def take (w : World (Booked Code ι κ)) (i : ι) (thread : Thread) : World (Booked Code ι κ) :=
  { w with state.holder := Function.update w.state.holder thread (some i) }

/-- The call on the thread has ended. -/
def leave (w : World (Booked Code ι κ)) (thread : Thread) (call : κ) (ended : Conclusion) : World (Booked Code ι κ) :=
  { w with
    state.holder := Function.update w.state.holder thread none
    state.calls := Function.update w.state.calls thread (w.state.calls thread ++ [(call, ended)]) }

end World

/-- A run and how it ended, as a run that always returns. -/
def Run.attempt {P : Program} (m : Run P α) : Run P (Except Interrupt α) :=
  tryCatch (do return .ok (← m)) fun e => return .error e

/-- Makes a call on a thread that was taken for it. -/
def conclude (thread : Thread) (call : κ) (m : BookedCall Code ι κ) : Run (Booked Code ι κ) (Option Conclusion) := do
  let ended ← m.attempt
  modify fun w => w.leave thread call ended
  return some ended

/-- Strand `i` makes a call on a thread and waits for its end, if no other call is under way there. -/
def visit (i : ι) (thread : Thread) (call : κ) (m : BookedCall Code ι κ) :
    Run (Booked Code ι κ) (Option Conclusion) := do
  let taken ← (modifyGet fun w =>
    if (w.state.holder thread).isNone then (true, w.take i thread) else (false, w) : Run (Booked Code ι κ) Bool)
  if taken then conclude thread call m else return none

/-- The second run is what the first one does on the thread by itself: hooks are called there in both
    runs, also by the code that runs in them, and calls on other threads are left out. `alone` gives
    for each call the run that it is by itself. -/
inductive Solo (alone : Thread → κ → BookedCall Code ι κ) (i : ι) :
    Thread → {α : Type} → Run (Booked Code ι κ) α → Run (Booked Code ι κ) α → Prop
  | done {thread : Thread} {α : Type} (a : α) : Solo alone i thread (.done a) (.done a)
  | stop {thread : Thread} {α : Type} (e : Interrupt) : Solo alone i thread (.stop e : Run _ α) (.stop e)
  | bind {thread : Thread} {α β : Type} {m m' : Run (Booked Code ι κ) α} {k k' : α → Run (Booked Code ι κ) β}
      (first : Solo alone i thread m m') (rest : ∀ a, Solo alone i thread (k a) (k' a)) :
      Solo alone i thread (m >>= k) (m' >>= k')
  | rescue {thread : Thread} {α : Type} {m m' : Run (Booked Code ι κ) α}
      {handle handle' : Interrupt → Run (Booked Code ι κ) α} (first : Solo alone i thread m m')
      (rest : ∀ e, Solo alone i thread (handle e) (handle' e)) :
      Solo alone i thread (tryCatch m handle) (tryCatch m' handle')
  | note {thread : Thread} (e : Event) (beside : e.place? = none) : Solo alone i thread (Run.note e) (Run.note e)
  | isProcessing {thread : Thread} (t : Tracer (Booked Code ι κ)) :
      Solo alone i thread (t.isProcessing thread) (t.isProcessing thread)
  | call {thread : Thread} {exec exec' : Exec (Booked Code ι κ)} {t : Tracer (Booked Code ι κ)} {site site' : Site}
      (hook : Hook (Booked Code ι κ)) (on : site.thread = thread) (on' : site'.thread = thread)
      (stateless : t.Stateless) (code : ∀ c, Solo alone i thread (exec site c) (exec' site' c)) :
      Solo alone i thread (t.call exec site hook) (t.call exec' site' hook)
  | elsewhere {thread other : Thread} (call : κ) {m : BookedCall Code ι κ}
      (work : Solo alone i other m (alone other call)) :
      Solo alone i thread (discard (visit i other call m)) (.done ())

/-- What a strand does: calls on threads, one after another, each with what it has come to know. -/
inductive Visits (alone : Thread → κ → BookedCall Code ι κ) (i : ι) :
    {α : Type} → Run (Booked Code ι κ) α → Prop
  | done {α : Type} (a : α) : Visits alone i (.done a)
  | stop {α : Type} (e : Interrupt) : Visits alone i (.stop e : Run _ α)
  | bind {α β : Type} {m : Run (Booked Code ι κ) α} {k : α → Run (Booked Code ι κ) β} (first : Visits alone i m)
      (rest : ∀ a, Visits alone i (k a)) : Visits alone i (m >>= k)
  | visit (thread : Thread) (call : κ) {m : BookedCall Code ι κ}
      (work : Solo alone i thread m (alone thread call)) : Visits alone i (visit i thread call m)

/-- Calls on a thread, one after another, alone. -/
def redo (alone : Thread → κ → BookedCall Code ι κ) (thread : Thread) (calls : List κ) :
    Run (Booked Code ι κ) (List Conclusion) :=
  calls.mapM fun call => (alone thread call).attempt

/-! ## What strands rely on -/

/-- Others have done nothing to the thread, nor to its place in the ledger. -/
structure Spared (thread : Thread) (w v : World (Booked Code ι κ)) : Prop extends World.Spares thread w v where
  holder : v.state.holder thread = w.state.holder thread
  calls : v.state.calls thread = w.state.calls thread

/-- The strand has calls under way on these threads. -/
def Holding (i : ι) (threads : List Thread) (w : World (Booked Code ι κ)) : Prop :=
  ∀ thread, w.state.holder thread = some i ↔ thread ∈ threads

variable {alone : Thread → κ → BookedCall Code ι κ} {start : World (Booked Code ι κ)} {i : ι}
variable {w v u : World (Booked Code ι κ)} {thread : Thread} {waiting : List Thread}

/-- The calls made on the thread ended as they do alone, from `start` on. If none is under way, they
    have left the thread as it is left then. -/
def Followed (alone : Thread → κ → BookedCall Code ι κ) (start : World (Booked Code ι κ))
    (thread : Thread) (w : World (Booked Code ι κ)) : Prop :=
  ∃ cells w', (redo alone thread ((w.state.calls thread).map Prod.fst)).run start =
      .ok ((w.state.calls thread).map Prod.snd) w' ∧
    (w.state.holder thread = none → World.EqOn thread cells w w')

/-- All threads are as they should be. -/
structure InOrder (alone : Thread → κ → BookedCall Code ι κ) (start w : World (Booked Code ι κ)) :
    Prop where
  made : w.memory.Made
  followed : ∀ thread, Followed alone start thread w

/-- What a strand relies on: others spare the threads on which it has calls under way. -/
structure Relies (alone : Thread → κ → BookedCall Code ι κ) (start : World (Booked Code ι κ)) (i : ι)
    (w v : World (Booked Code ι κ)) : Prop where
  spared : ∀ thread, w.state.holder thread = some i → Spared thread w v
  untaken : ∀ thread, v.state.holder thread = some i → w.state.holder thread = some i
  inOrder : InOrder alone start w → InOrder alone start v

/-- What a strand guarantees: it spares the threads on which others have calls under way, and those of
    its own that wait. -/
structure Grants (alone : Thread → κ → BookedCall Code ι κ) (start : World (Booked Code ι κ)) (i : ι)
    (waiting : List Thread) (w v : World (Booked Code ι κ)) : Prop where
  spared : ∀ thread j, w.state.holder thread = some j → j ≠ i ∨ thread ∈ waiting → Spared thread w v
  untaken : ∀ thread j, v.state.holder thread = some j → j ≠ i → w.state.holder thread = some j
  inOrder : InOrder alone start w → InOrder alone start v

theorem Spared.refl (thread : Thread) (w : World (Booked Code ι κ)) : Spared thread w w := ⟨.refl thread w, rfl, rfl⟩

theorem Spared.trans (first : Spared thread w v) (later : Spared thread v u) : Spared thread w u where
  toSpares := first.toSpares.trans later.toSpares
  holder := later.holder.trans first.holder
  calls := later.calls.trans first.calls

theorem Relies.refl (i : ι) (w : World (Booked Code ι κ)) : Relies alone start i w w :=
  ⟨fun thread _ => .refl thread w, fun _ held => held, fun inOrder => inOrder⟩

theorem Relies.trans (first : Relies alone start i w v) (later : Relies alone start i v u) :
    Relies alone start i w u where
  spared thread held := by
    have spared := first.spared thread held
    exact spared.trans (later.spared thread (spared.holder.trans held))
  untaken thread held := first.untaken thread (later.untaken thread held)
  inOrder inOrder := later.inOrder (first.inOrder inOrder)

/-- What a strand guarantees is what the others rely on. -/
theorem Grants.relies {j : ι} (grants : Grants alone start i waiting w v) (ne : i ≠ j) : Relies alone start j w v where
  spared thread held := grants.spared thread j held (.inl (Ne.symm ne))
  untaken thread held := grants.untaken thread j held (Ne.symm ne)
  inOrder := grants.inOrder

theorem Grants.refl (w : World (Booked Code ι κ)) : Grants alone start i waiting w w :=
  ⟨fun thread _ _ _ => .refl thread w, fun _ _ held _ => held, fun inOrder => inOrder⟩

/-- More threads wait than need to be spared. -/
theorem Grants.mono {more : List Thread} (grants : Grants alone start i more w v) (fewer : waiting ⊆ more) :
    Grants alone start i waiting w v where
  spared thread j held who := grants.spared thread j held (who.imp_right fun waits => fewer waits)
  untaken := grants.untaken
  inOrder := grants.inOrder

theorem Holding.relied {threads : List Thread} (holding : Holding i threads w) (relies : Relies alone start i w v) :
    Holding i threads v := by
  intro thread
  constructor
  · intro held
    exact (holding thread).mp (relies.untaken thread held)
  · intro member
    have held := (holding thread).mpr member
    exact (relies.spared thread held).holder.trans held

/-- A step that spares all threads but one keeps order if that one is as it should be. -/
theorem InOrder.changed (inOrder : InOrder alone start w) (spared : ∀ other ≠ thread, Spared other w v)
    (made : v.memory.Made) (followed : Followed alone start thread v) : InOrder alone start v where
  made := made
  followed other := by
    by_cases same : other = thread
    · exact same ▸ followed
    · have spared := spared other same
      obtain ⟨cells, w', executed, equal⟩ := inOrder.followed other
      refine ⟨cells, w', by rw [spared.calls]; exact executed, ?_⟩
      intro free
      exact (equal (spared.holder.symm.trans free)).later spared.toSpares

/-- While a call is under way, nothing more is known of its thread than how the earlier ones ended. -/
theorem Followed.busy {j : ι} (followed : Followed alone start thread w)
    (calls : v.state.calls thread = w.state.calls thread) (held : v.state.holder thread = some j) :
    Followed alone start thread v := by
  obtain ⟨cells, w', executed, _⟩ := followed
  refine ⟨cells, w', by rw [calls]; exact executed, ?_⟩
  intro free
  rw [held] at free
  cases free

/-! ## A call under way -/

/-- A call under way: the strand that makes it, the threads that wait for its end, and the calls that
    were made before on its thread. -/
structure CallInProgress (ι κ : Type) where
  strand : ι
  thread : Thread
  waiting : List Thread
  calls : List (κ × Conclusion)
  fresh : thread ∉ waiting

/-- What holds while the call is under way. -/
structure CallInProgress.Holds (alone : Thread → κ → BookedCall Code ι κ) (start : World (Booked Code ι κ))
    (s : CallInProgress ι κ) (w : World (Booked Code ι κ)) : Prop where
  inOrder : InOrder alone start w
  holding : Holding s.strand (s.thread :: s.waiting) w
  calls : w.state.calls s.thread = s.calls

namespace CallInProgress

variable {s : CallInProgress ι κ}

theorem Holds.held (holds : s.Holds alone start w) : w.state.holder s.thread = some s.strand :=
  (holds.holding s.thread).mpr List.mem_cons_self

/-- Threads of other strands, and those that wait, are other threads than that of the call. -/
theorem Holds.apart {other : Thread} {j : ι} (holds : s.Holds alone start w) (held : w.state.holder other = some j)
    (who : j ≠ s.strand ∨ other ∈ s.waiting) : other ≠ s.thread := by
  rintro rfl
  rcases who with ne | waits
  · rw [holds.held] at held
    exact ne (Option.some.inj held).symm
  · exact s.fresh waits

theorem Holds.relied (holds : s.Holds alone start w) (relies : Relies alone start s.strand w v) :
    s.Holds alone start v where
  inOrder := relies.inOrder holds.inOrder
  holding := holds.holding.relied relies
  calls := (relies.spared s.thread holds.held).calls.trans holds.calls

/-- What the call does to its thread is granted, and it stays under way. -/
theorem Holds.touched (holds : s.Holds alone start w) (touches : Touches s.thread w v) :
    Grants alone start s.strand s.waiting w v ∧ s.Holds alone start v := by
  have spared : ∀ other ≠ s.thread, Spared other w v := by
    intro other ne
    exact ⟨touches.others other ne, by rw [touches.state], by rw [touches.state]⟩
  have inOrder : InOrder alone start w → InOrder alone start v := by
    intro inOrder
    have busy := (inOrder.followed s.thread).busy (v := v) (by rw [touches.state]) (touches.state ▸ holds.held)
    exact inOrder.changed spared (touches.lawful inOrder.made) busy
  refine ⟨⟨?_, fun thread j held _ => touches.state ▸ held, inOrder⟩, inOrder holds.inOrder, ?_, ?_⟩
  · intro other j held who
    exact spared other (holds.apart held who)
  · intro thread
    rw [touches.state]
    exact holds.holding thread
  · rw [touches.state]
    exact holds.calls

/-- What the strand relies on and guarantees during the call. -/
def relyGuarantee (alone : Thread → κ → BookedCall Code ι κ) (start : World (Booked Code ι κ))
    (s : CallInProgress ι κ) : RelyGuarantee (Booked Code ι κ) where
  thread := s.thread
  rely := Relies alone start s.strand
  guar := Grants alone start s.strand s.waiting
  holds := s.Holds alone start
  refl := Relies.refl s.strand
  made _ holds := holds.inOrder.made
  others _ _ holds relies := ⟨(relies.spared s.thread holds.held).toSpares, holds.relied relies⟩
  own _ _ holds touches := holds.touched touches

end CallInProgress

/-- The run does among others what `m'` does alone, whenever the strand makes it on the thread. -/
def Follows (alone : Thread → κ → BookedCall Code ι κ) (start : World (Booked Code ι κ)) (i : ι)
    (thread : Thread) (m m' : Run (Booked Code ι κ) α) : Prop :=
  ∀ s : CallInProgress ι κ, s.strand = i → s.thread = thread → (s.relyGuarantee alone start).Simulated [] Eq m m'

/-! ## Whole calls -/

/-- The step that begins a call, if none is under way on the thread. -/
theorem take_granted (inOrder : InOrder alone start w) (free : w.state.holder thread = none) (i : ι)
    (waiting : List Thread) : Grants alone start i waiting w (w.take i thread) := by
  have spared : ∀ other ≠ thread, Spared other w (w.take i thread) := by
    intro other ne
    exact ⟨.of_desk rfl rfl rfl rfl, by simp [World.take, ne], rfl⟩
  refine ⟨?_, ?_, fun _ => ?_⟩
  · intro other j held _
    apply spared
    rintro rfl
    rw [free] at held
    cases held
  · intro other j held ne
    by_cases same : other = thread
    · subst same
      have mine : i = j := by simpa [World.take] using held
      exact absurd mine.symm ne
    · simpa [World.take, same] using held
  · refine inOrder.changed spared inOrder.made ((inOrder.followed thread).busy (j := i) rfl ?_)
    simp [World.take]

theorem Run.run_attempt {P : Program} (m : Run P α) (w : World P) : ∃ r v, m.attempt.run w = .ok r v := by
  induction m generalizing w with
  | done a => exact ⟨.ok a, w, rfl⟩
  | stop e => exact ⟨.error e, w, rfl⟩
  | act change next ih => exact ih w (change w)

theorem RelyGuarantee.Simulated.attempt {P : Program} {c : RelyGuarantee P} {cells : List CellId} {m m' : Run P α}
    (simulated : c.Simulated cells Eq m m') : c.Simulated cells Eq m.attempt m'.attempt := by
  refine .rescue (simulated.bind ?_) fun e => .done rfl
  rintro a _ rfl
  exact .done rfl

/-- One more call, after the others. -/
theorem run_redo_concat {calls : List κ} {call : κ} {ends : List Conclusion} {ended : Conclusion}
    (before : (redo alone thread calls).run start = .ok ends u)
    (executed : (alone thread call).attempt.run u = .ok ended v) :
    (redo alone thread (calls ++ [call])).run start = .ok (ends ++ [ended]) v := by
  rw [redo] at before
  rw [redo, List.mapM_append]
  simp [before, executed]

section
variable {s : CallInProgress ι κ} {cells : List CellId} {call : κ} {ended : Conclusion} {w' : World (Booked Code ι κ)}

/-- The step that ends a call. -/
theorem leave_granted (holds : s.Holds alone start w) (equal : World.EqOn s.thread cells w w')
    (before : (redo alone s.thread (s.calls.map Prod.fst)).run start = .ok (s.calls.map Prod.snd) u)
    (executed : (alone s.thread call).attempt.run u = .ok ended w') :
    Grants alone start s.strand s.waiting w (w.leave s.thread call ended) ∧
      Holding s.strand s.waiting (w.leave s.thread call ended) := by
  have spared : ∀ other ≠ s.thread, Spared other w (w.leave s.thread call ended) := by
    intro other ne
    exact ⟨.of_desk rfl rfl rfl rfl, by simp [World.leave, ne], by simp [World.leave, ne]⟩
  have followed : Followed alone start s.thread (w.leave s.thread call ended) := by
    refine ⟨cells, w', ?_, fun _ => equal.later (.of_desk rfl rfl rfl rfl)⟩
    simpa [World.leave, holds.calls] using run_redo_concat before executed
  refine ⟨⟨?_, ?_, fun inOrder => inOrder.changed spared inOrder.made followed⟩, ?_⟩
  · intro other j held who
    exact spared other (holds.apart held who)
  · intro other j held _
    by_cases same : other = s.thread
    · simp [World.leave, same] at held
    · simpa [World.leave, same] using held
  · intro other
    by_cases same : other = s.thread
    · subst same
      simp [World.leave, s.fresh]
    · have before := holds.holding other
      rw [List.mem_cons, or_iff_right same] at before
      simpa [World.leave, same] using before

/-- The call itself, from the moment when its thread was taken. -/
theorem conclude_abides {m : BookedCall Code ι κ} (work : Follows alone start s.strand s.thread m (alone s.thread call))
    (holds : s.Holds alone start w) (equal : World.EqOn s.thread cells w u)
    (before : (redo alone s.thread (s.calls.map Prod.fst)).run start = .ok (s.calls.map Prod.snd) u) :
    (conclude s.thread call m).Abides (Relies alone start s.strand) (Grants alone start s.strand s.waiting)
      (Run.Returned fun _ v => InOrder alone start v ∧ Holding s.strand s.waiting v) w := by
  have worlds : (s.relyGuarantee alone start).Related cells w u := ⟨equal, holds⟩
  have inner := (work s rfl rfl).attempt cells w u List.nil_prefix worlds
  refine inner.bind (Relies.refl _) ?_ ?_
  · rintro ended x ⟨more, r', x', _, executed, worlds, agree⟩
    cases agree with
    | @ok _ ended' both =>
      subst both
      intro y relied
      have worlds := worlds.later relied
      obtain ⟨granted, holding⟩ := leave_granted worlds.holds worlds.equal before executed
      refine ⟨granted, ?_⟩
      intro z relied
      exact ⟨relied.inOrder (granted.inOrder worlds.holds.inOrder), holding.relied relied⟩
  · rintro e x ⟨more, r', x', _, executed, _, agree⟩
    cases agree with
    | error =>
      obtain ⟨r, z, returned⟩ := Run.run_attempt (alone s.thread call) u
      rw [returned] at executed
      cases executed

end

/-- A call on a thread does what the strand guarantees and returns, and then all threads are as they
    should be. -/
theorem visit_abides {call : κ} {m : BookedCall Code ι κ} (work : Follows alone start i thread m (alone thread call))
    (inOrder : InOrder alone start w) (holding : Holding i waiting w) :
    (visit i thread call m).Abides (Relies alone start i) (Grants alone start i waiting)
      (Run.Returned fun _ v => InOrder alone start v ∧ Holding i waiting v) w := by
  intro v relied
  have inOrder := relied.inOrder inOrder
  have holding := holding.relied relied
  cases free : v.state.holder thread with
  | some j =>
    simp only [free, Option.isNone_some, Bool.false_eq_true, if_false]
    refine ⟨.refl v, ?_⟩
    intro u relied
    exact ⟨relied.inOrder inOrder, holding.relied relied⟩
  | none =>
    simp only [free, Option.isNone_none, if_true]
    have granted := take_granted inOrder free i waiting
    refine ⟨granted, ?_⟩
    -- The call is made alone where the calls before it have left the thread.
    obtain ⟨cells, u, before, equal⟩ := inOrder.followed thread
    have fresh : thread ∉ waiting := by
      intro waits
      have held := (holding thread).mpr waits
      rw [free] at held
      cases held
    let s : CallInProgress ι κ := ⟨i, thread, waiting, v.state.calls thread, fresh⟩
    have holds : s.Holds alone start (v.take i thread) := by
      refine ⟨granted.inOrder inOrder, ?_, rfl⟩
      intro other
      by_cases same : other = thread
      · simp [World.take, same, s]
      · simpa [World.take, same, s] using holding other
    have equal : World.EqOn s.thread cells (v.take i thread) u := (equal free).later (.of_desk rfl rfl rfl rfl)
    exact conclude_abides work holds equal before

/-- A call on another thread, made while the thread waits, leaves no trace on it. -/
theorem Follows.elsewhere {other : Thread} {call : κ} {m : BookedCall Code ι κ}
    (work : Follows alone start i other m (alone other call)) :
    Follows alone start i thread (discard (visit i other call m)) (.done ()) := by
  rintro s rfl rfl known w w' _ worlds
  let waits (v : World (Booked Code ι κ)) : Prop :=
    World.EqOn s.thread known v w' ∧ v.state.holder s.thread = some s.strand ∧ v.state.calls s.thread = s.calls
  have spared : ∀ v u, waits v → Spared s.thread v u → waits u := by
    rintro v u ⟨equal, held, calls⟩ spared
    exact ⟨equal.later spared.toSpares, spared.holder.trans held, spared.calls.trans calls⟩
  -- The thread is one of those that wait for the call, so all steps of the call spare it.
  have waiting : waits w := ⟨worlds.equal, worlds.holds.held, worlds.holds.calls⟩
  have visited := visit_abides work worlds.holds.inOrder worlds.holds.holding
  have framed := visited.framed waiting
    (fun v u waiting relies => spared v u waiting (relies.spared s.thread waiting.2.1))
    (fun v u waiting grants => spared v u waiting (grants.spared s.thread _ waiting.2.1 (.inr List.mem_cons_self)))
  have granted := framed.mono (fun _ _ grants => grants.mono (List.subset_cons_self _ _)) fun r v => id
  refine granted.bind (Relies.refl _) ?_ ?_
  · rintro ended v ⟨⟨inOrder, holding⟩, equal, _, calls⟩ u relied
    have after : (s.relyGuarantee alone start).Related known v w' := ⟨equal, inOrder, holding, calls⟩
    exact ⟨known, .ok (), w', List.prefix_rfl, rfl, after.later relied, .ok rfl⟩
  · exact fun e v never => never.1.elim

/-- A run does among others what it does by itself. -/
theorem Solo.follows {m m' : Run (Booked Code ι κ) α} (solo : Solo alone i thread m m') :
    Follows alone start i thread m m' := by
  induction solo with
  | done a => exact fun s _ _ => .done rfl
  | stop e => exact fun s _ _ => .stop e
  | bind _ _ first rest =>
    intro s strand on
    refine (first s strand on).bind ?_
    rintro a _ rfl
    exact rest a s strand on
  | rescue _ _ first rest => exact fun s strand on => (first s strand on).rescue fun e => rest e s strand on
  | note e beside =>
    intro s strand on
    rw [← bind_pure (Run.note e)]
    exact .noteBeside beside beside (.done rfl)
  | isProcessing t =>
    rintro s _ rfl
    rw [← bind_pure (t.isProcessing s.thread)]
    exact .readSame (fun _ _ _ equal => congrArg Reporting.processing (equal.known t.name)) fun _ => .done rfl
  | call hook on on' stateless _ code =>
    intro s strand place
    exact Tracer.simulated_call ⟨on.trans place.symm, on'.trans place.symm, fun c => code c s strand place⟩ stateless
      hook
  | elsewhere call _ work => exact work.elsewhere

/-- A strand does what it guarantees, and once it is over, none of its calls is under way. -/
theorem Visits.abides {m : Run (Booked Code ι κ) α} (visits : Visits alone i m) (inOrder : InOrder alone start w)
    (holding : Holding i [] w) :
    m.Abides (Relies alone start i) (Grants alone start i [])
      (fun _ v => InOrder alone start v ∧ Holding i [] v) w := by
  induction visits generalizing w with
  | done a => exact fun v relied => ⟨relied.inOrder inOrder, holding.relied relied⟩
  | stop e => exact fun v relied => ⟨relied.inOrder inOrder, holding.relied relied⟩
  | bind _ _ first rest =>
    refine (first inOrder holding).bind (Relies.refl i) ?_ ?_
    · rintro a v ⟨inOrder, holding⟩
      exact rest a inOrder holding
    · exact fun e v holds => holds
  | visit thread call work =>
    refine (visit_abides work.follows inOrder holding).mono (fun _ _ grants => grants) ?_
    rintro (e | ended) v returned
    · exact returned.elim
    · exact returned

/-- All threads are as they should be before the first call. -/
theorem World.Fresh.inOrder {start' : World (Booked Code ι κ)} (fresh : start.Fresh) (fresh' : start'.Fresh)
    (records : start.memory.records = start'.memory.records) (outputFull : start.outputFull = start'.outputFull)
    (none : start.state = .empty) : InOrder alone start' start := by
  refine ⟨fresh.made, ?_⟩
  intro thread
  refine ⟨[], start', ?_, fun _ => fresh.eqOn fresh' records outputFull thread⟩
  rw [none]
  rfl

/-- Let strands make calls on threads, in any order, and also on other threads out of calls that are
    under way. The calls of each thread end as they do when they are made alone. When none is under
    way, tracers know the same of the thread then, trackers show the same frames, and the same reports
    were made, apart from their identifiers and times. So whatever is reported elsewhere, a thread
    without calls is at rest. A strand that is over has no call under way. -/
theorem Pool.isolated [DecidableEq ι] {strand : ι → Run (Booked Code ι κ) Unit} {start' : World (Booked Code ι κ)}
    {q : Pool (Booked Code ι κ) ι} (visits : ∀ i, Visits alone i (strand i)) (fresh : start.Fresh)
    (fresh' : start'.Fresh) (records : start.memory.records = start'.memory.records)
    (outputFull : start.outputFull = start'.outputFull) (empty : start.state = .empty)
    (reached : Reaches ⟨strand, start⟩ q) :
    (∀ thread, ∃ v, (redo alone thread ((q.world.state.calls thread).map Prod.fst)).run start' =
        .ok ((q.world.state.calls thread).map Prod.snd) v ∧
      (q.world.state.holder thread = none →
        (∀ tracer, q.world.reportingOf tracer thread = v.reportingOf tracer thread) ∧
          (∀ tracker, q.world.memory.pictures (tracker, thread) = v.memory.pictures (tracker, thread)) ∧
            List.Forall₂ Event.EqUpToStamp (q.world.desk thread).reports (v.desk thread).reports ∧
              (q.world.state.calls thread = [] → ∀ tracer, q.world.reportingOf tracer thread = ⟨false, none⟩))) ∧
      ∀ i thread, (q.strand i).IsOver → q.world.state.holder thread ≠ some i := by
  have begun : InOrder alone start' start := fresh.inOrder fresh' records outputFull empty
  have idle : ∀ i, Holding i [] start := by
    intro i thread
    simp [empty, Ledger.empty]
  obtain ⟨inOrder, abides⟩ := abides_of_reaches (InOrder alone start') Relies.refl (fun _ => Relies.trans)
    (fun i j v u ne (grants : Grants alone start' i [] v u) => grants.relies ne)
    (fun i v u (grants : Grants alone start' i [] v u) => grants.inOrder)
    (fun i => (visits i).abides begun (idle i)) begun reached
  constructor
  · intro thread
    obtain ⟨cells, v, executed, equal⟩ := inOrder.followed thread
    refine ⟨v, executed, ?_⟩
    intro free
    have equal := equal free
    refine ⟨equal.known, equal.memory.pictures, equal.reports, ?_⟩
    intro uncalled tracer
    rw [uncalled] at executed
    cases executed
    rw [equal.known, World.reportingOf, fresh'.reporting]
    rfl
  · rintro i thread ⟨r, finished⟩ held
    have kept := abides i
    rw [finished] at kept
    have holding : Holding i [] q.world := by
      cases r with
      | ok a => exact (kept _ (Relies.refl i _)).2
      | error e => exact (kept _ (Relies.refl i _)).2
    exact absurd ((holding thread).mp held) List.not_mem_nil

namespace Sample

/-- A program with one piece of code, strands of two kinds and calls with names. -/
abbrev booked : Program := Booked Unit Bool String

/-- A tracer whose serializer runs the code each time. -/
def shared : Tracer booked where
  name := "tracer"
  tracker := ⟨.own "tracer", [], []⟩
  serializer := .text
  handler := .record
  throttle := none
  turns := fun
    | .serializer, _ => some ⟨(), none⟩
    | .handler, _ => none

/-- A call about the error, with code that does nothing. -/
def reportsError (thread method : String) : BookedCall Unit Bool String :=
  shared.call (fun _ _ => pure ()) ⟨thread, []⟩ (.onError method error)

/-- The code reports the error on another thread. -/
def crossing : Exec booked := fun _ _ => discard (visit true "worker" "nested" (reportsError "worker" "nested"))

/-- One strand reports the error on one thread, the other one on another thread. -/
def crossed : Bool → Run booked Unit
  | true => discard (visit true "main" "outer" (shared.call crossing ⟨"main", []⟩ (.onError "outer" error)))
  | false => discard (visit false "worker" "again" (reportsError "worker" "again"))

theorem visits_crossed (i : Bool) : Visits reportsError i (crossed i) := by
  have idle : ∀ (i : Bool) (thread method : String), Solo reportsError i thread (reportsError thread method)
      (reportsError thread method) := fun i thread method =>
    .call (.onError method error) rfl rfl (fun part n => by cases part <;> rfl) fun _ => .done ()
  cases i with
  | false => exact .bind (.visit "worker" "again" (idle _ _ _)) fun _ => .done ()
  | true =>
    refine .bind (.visit "main" "outer" ?_) fun _ => .done ()
    exact .call (.onError "outer" error) rfl rfl (fun part n => by cases part <;> rfl) fun _ =>
      .elsewhere "nested" (idle _ _ _)

end Sample

open Sample in
/-- The error is reported once on each thread, also while the first one waits for the other. -/
theorem Pool.isolated_sample : ∃ (q : Pool booked Bool) (v : World booked),
    Reaches ⟨Sample.crossed, .start ⟨0, 0⟩ Sample.start.stamp .empty⟩ q ∧
      q.world.state.calls "worker" = [("nested", .ok (.ok ())), ("again", .ok (.ok ()))] ∧
        (redo reportsError "worker" ["nested", "again"]).run (.start ⟨9, 9⟩ Sample.start.stamp .empty) =
          .ok [.ok (.ok ()), .ok (.ok ())] v ∧
            List.Forall₂ Event.EqUpToStamp (q.world.desk "worker").reports (v.desk "worker").reports ∧
              (q.world.desk "worker").reports.length = 5 := by
  have fresh := World.fresh_start (P := booked) ⟨0, 0⟩ Sample.start.stamp .empty
  have fresh' := World.fresh_start (P := booked) ⟨9, 9⟩ Sample.start.stamp .empty
  have first := Pool.reaches_after
    (⟨Sample.crossed, .start ⟨0, 0⟩ Sample.start.stamp .empty⟩ : Pool booked Bool) true 60
  have later := first.trans (Pool.reaches_after _ false 30)
  obtain ⟨threads, _⟩ := isolated visits_crossed fresh fresh' rfl rfl rfl later
  obtain ⟨v, executed, same⟩ := threads "worker"
  obtain ⟨_, _, reports, _⟩ := same rfl
  exact ⟨_, v, later, rfl, executed, reports, rfl⟩

end FaultSnapshot
