import FaultSnapshot.Proofs.Windows
import FaultSnapshot.Throttle.Contention
import Mathlib.Data.List.Chain
import Mathlib.Order.Lattice

/-!
# Limits among threads

However threads and the clock come in between, the exchanges on the word of a limiter are the calls
of one thread that makes them in this order, each at its own reading. What such a sequence lets
through is counted along the windows that it opens: `Budget.Tally` says of exchanges how far they have
brought the budget, and one more exchange keeps it.
-/

namespace FaultSnapshot

variable {ι : Type}

/-! ## Exchanges in order -/

namespace Budget

variable {b : Budget} {w : Window} {log : List (Exchange ι)}

/-- The latest time since the epoch at which an exchange was made, by its own reading. -/
def latest (b : Budget) (log : List (Exchange ι)) : Nat :=
  (log.map fun e => b.elapsed e.reading.toNat).foldl max 0

/-- A window start follows another: it is the same, or at least a window later. -/
def Follows (b : Budget) (s s' : Nat) : Prop := s' = s ∨ s + b.windowMs ≤ s'

/-- The exchange is what the budget makes of window `w`. -/
structure Makes (b : Budget) (w : Window) (e : Exchange ι) : Prop where
  start : e.start = (b.count w e.reading.toNat).start
  admitted : e.admitted = true ↔ (b.count w e.reading.toNat).count ≤ b.effective

/-- The exchanges have brought the budget to window `w`. -/
structure Tally (b : Budget) (log : List (Exchange ι)) (w : Window) : Prop where
  /-- No start is later than the present one. -/
  started : ∀ e ∈ log, e.start ≤ w.start
  /-- The present window has seen the exchanges with its start. -/
  counted : log.countP (·.start = w.start) = w.count
  /-- In each window, the first exchanges up to the limit are admitted, and no others. -/
  ranked : ∀ before e after, log = before ++ e :: after →
    (e.admitted = true ↔ before.countP (·.start = e.start) < b.effective)
  /-- Starts follow one another, from zero to the present one. -/
  spaced : (0 :: log.map Exchange.start).IsChain b.Follows
  last : (0 :: log.map Exchange.start).getLast? = some w.start
  /-- The windows before the present one have used up at most the limit each. -/
  total : log.countP (·.admitted) ≤ b.effective * (w.start / b.windowMs) + min w.count b.effective
  /-- The present window was started by a reading. -/
  read : w.start ≤ b.latest log

namespace Tally

theorem empty (b : Budget) : b.Tally ([] : List (Exchange ι)) ⟨0, 0⟩ where
  started _ member := nomatch member
  counted := rfl
  ranked before e after split := by simp at split
  spaced := .singleton 0
  last := rfl
  total := Nat.zero_le _
  read := Nat.le_refl 0

variable {e : Exchange ι}

theorem latest_concat (b : Budget) (log : List (Exchange ι)) (e : Exchange ι) :
    b.latest (log ++ [e]) = max (b.latest log) (b.elapsed e.reading.toNat) := by
  simp [latest]

/-- The present window has seen as many exchanges as its count says, the last one among them. -/
theorem counted_concat (tally : b.Tally log w) (limited : 0 < b.windowMs) (makes : b.Makes w e) :
    log.countP (·.start = e.start) + 1 = (b.count w e.reading.toNat).count := by
  have start := makes.start
  rcases count_cases b w e.reading.toNat with same | ⟨ended, new⟩
  · rw [same] at start ⊢
    rw [start, tally.counted]
  · -- No exchange before had the start of the new window, which is later than all.
    rw [new] at start ⊢
    dsimp only at start
    have none : log.countP (·.start = e.start) = 0 := by
      rw [List.countP_eq_zero]
      intro e' member
      have earlier := tally.started e' member
      simp only [decide_eq_true_eq]
      omega
    rw [none]

theorem ranked_concat (tally : b.Tally log w) (limited : 0 < b.windowMs) (makes : b.Makes w e)
    (before : List (Exchange ι)) (e' : Exchange ι) (after : List (Exchange ι))
    (split : log ++ [e] = before ++ e' :: after) :
    e'.admitted = true ↔ before.countP (·.start = e'.start) < b.effective := by
  rcases List.eq_nil_or_concat after with rfl | ⟨after, e'', rfl⟩
  · obtain ⟨rfl, last⟩ := List.append_inj' split rfl
    obtain rfl : e = e' := List.singleton_inj.mp last
    rw [makes.admitted, ← tally.counted_concat limited makes]
    exact Nat.succ_le_iff
  · rw [List.concat_eq_append, ← List.cons_append, ← List.append_assoc] at split
    obtain ⟨split, _⟩ := List.append_inj' split rfl
    exact tally.ranked before e' after split

theorem spaced_concat (tally : b.Tally log w) (makes : b.Makes w e) :
    (0 :: (log ++ [e]).map Exchange.start).IsChain b.Follows := by
  rw [List.map_append, ← List.cons_append, List.isChain_append]
  refine ⟨tally.spaced, .singleton e.start, ?_⟩
  intro s last s' first
  rw [tally.last, Option.mem_some_iff] at last
  obtain rfl : e.start = s' := by simpa using first
  rw [← last, makes.start]
  rcases count_cases b w e.reading.toNat with same | ⟨ended, new⟩
  · rw [same]
    exact .inl rfl
  · rw [new]
    exact .inr ended

theorem total_concat (tally : b.Tally log w) (limited : 0 < b.windowMs) (makes : b.Makes w e) :
    (log ++ [e]).countP (·.admitted) ≤
      b.effective * ((b.count w e.reading.toNat).start / b.windowMs) +
        min (b.count w e.reading.toNat).count b.effective := by
  have total := tally.total
  have one : [e].countP (·.admitted) = if (b.count w e.reading.toNat).count ≤ b.effective then 1 else 0 := by
    rw [List.countP_singleton]
    exact if_congr makes.admitted rfl rfl
  rw [List.countP_append, one]
  rcases count_cases b w e.reading.toNat with same | ⟨ended, new⟩
  · rw [same]
    dsimp only
    split <;> omega
  · rw [new]
    dsimp only
    -- The window that is over counts in full from now on.
    have later : w.start / b.windowMs + 1 ≤ b.elapsed e.reading.toNat / b.windowMs := by
      rw [← Nat.add_div_right _ limited]
      exact Nat.div_le_div_right ended
    have full := Nat.mul_le_mul_left b.effective later
    rw [Nat.mul_add, Nat.mul_one] at full
    split <;> omega

/-- One more exchange brings the budget to its next window. -/
theorem concat (tally : b.Tally log w) (limited : 0 < b.windowMs) (makes : b.Makes w e) :
    b.Tally (log ++ [e]) (b.count w e.reading.toNat) where
  started e' member := by
    rcases List.mem_append.mp member with member | member
    · have earlier := tally.started e' member
      rcases count_cases b w e.reading.toNat with same | ⟨ended, new⟩
      · rw [same]
        exact earlier
      · rw [new]
        dsimp only
        omega
    · obtain rfl := List.mem_singleton.mp member
      exact Nat.le_of_eq makes.start
  counted := by
    rw [← makes.start, List.countP_append, ← tally.counted_concat limited makes]
    simp
  ranked := tally.ranked_concat limited makes
  spaced := tally.spaced_concat makes
  last := by
    rw [List.map_append, ← List.cons_append, List.getLast?_append, ← makes.start]
    rfl
  total := tally.total_concat limited makes
  read := by
    rw [latest_concat]
    rcases count_cases b w e.reading.toNat with same | ⟨ended, new⟩
    · rw [same]
      exact le_max_of_le_left tally.read
    · rw [new]
      exact le_max_right _ _

/-- At most the limit is admitted in each window, and there are at most as many windows as fit
    between the epoch and the latest reading. -/
theorem admitted_le (tally : b.Tally log w) :
    log.countP (·.admitted) ≤ b.effective * (1 + b.latest log / b.windowMs) := by
  calc log.countP (·.admitted)
      ≤ b.effective * (w.start / b.windowMs) + min w.count b.effective := tally.total
    _ ≤ b.effective * (w.start / b.windowMs) + b.effective := Nat.add_le_add_left (Nat.min_le_right _ _) _
    _ ≤ b.effective * (b.latest log / b.windowMs) + b.effective :=
        Nat.add_le_add_right (Nat.mul_le_mul_left _ (Nat.div_le_div_right tally.read)) _
    _ = b.effective * (1 + b.latest log / b.windowMs) := by rw [Nat.mul_add, Nat.mul_one, Nat.add_comm]

end Tally

end Budget

/-! ## Threads -/

namespace Contention

variable [DecidableEq ι] {b : Budget} {first : Limiter} {c : Contention ι}

/-- What a thread was answered last, by its last exchange. -/
def lastAnswer? (c : Contention ι) (i : ι) : Option Bool :=
  (c.exchanges.filter (·.thread = i)).getLast?.map (·.admitted)

theorem lastAnswer?_exchange (c : Contention ι) (i : ι) (reading seen : UInt64) (j : ι) :
    (c.exchange i reading seen).lastAnswer? j =
      if j = i then some (decide ((c.limiter.advance (c.limiter.elapsed reading) seen).2 ≤ c.limiter.limit.toUInt64))
      else c.lastAnswer? j := by
  by_cases same : j = i
  · simp [lastAnswer?, exchange, same]
  · simp [lastAnswer?, exchange, same, Ne.symm same]

/-- The exchanges so far are the calls of one thread that makes them in their order, each thread has
    its answer from its own, and together they have brought the budget to where the limiter is. -/
structure InOrder (b : Budget) (first : Limiter) (c : Contention ι) : Prop where
  sequential : first.offers (c.exchanges.map (·.reading)) = (c.exchanges.map (·.admitted), c.limiter)
  answered : ∀ i admitted, c.stage i = .answered admitted → c.lastAnswer? i = some admitted
  tally : ∃ w, c.limiter.Counts b w ∧ b.Tally c.exchanges w

theorem inOrder_start (windowMs : UInt64) (limit : UInt32) (epoch clock : UInt64) :
    (start windowMs limit epoch clock : Contention ι).InOrder ⟨windowMs.toNat, limit.toNat, epoch.toNat⟩
      (.create windowMs limit epoch) where
  sequential := rfl
  answered _ _ answered := nomatch answered
  tally := ⟨_, Limiter.counts_create windowMs limit epoch, .empty _⟩

namespace InOrder

/-- A step that exchanges nothing leaves word and exchanges alone. -/
theorem setStage (inOrder : c.InOrder b first) (i : ι) {s : Stage} (underway : ∀ admitted, s ≠ .answered admitted) :
    (c.setStage i s).InOrder b first where
  sequential := inOrder.sequential
  answered j admitted answered := by
    by_cases same : j = i
    · exact absurd ((if_pos same).symm.trans answered) (underway admitted)
    · exact inOrder.answered j admitted ((if_neg same).symm.trans answered)
  tally := inOrder.tally

/-- An exchange of the present word is one more call of the one thread. -/
theorem exchange (inOrder : c.InOrder b first) (limited : ¬ b.Unlimited) (i : ι) (reading : UInt64) :
    (c.exchange i reading c.limiter.state).InOrder b first := by
  obtain ⟨w, counts, tally⟩ := inOrder.tally
  have enabled : ¬ c.limiter.disabled = true := fun disabled => limited (counts.disabled_iff.mp disabled)
  have positive : 0 < b.windowMs := Nat.pos_of_ne_zero fun zero => limited (.inl zero)
  have after := counts.advance limited reading
  refine ⟨?_, ?_, b.count w reading.toNat, after, tally.concat positive ⟨after.toNat_startOf, ?_⟩⟩
  · have before := inOrder.sequential
    have offer : c.limiter.offer reading = (_, (c.exchange i reading c.limiter.state).limiter) := if_neg enabled
    unfold Limiter.offers at before ⊢
    simp only [Contention.exchange, List.map_append, List.map_singleton, feed_concat, before]
    rw [offer]
    rfl
  · intro j admitted answered
    rw [lastAnswer?_exchange]
    by_cases same : j = i
    · rw [if_pos same]
      exact congrArg some (Stage.answered.inj ((if_pos same).symm.trans answered))
    · rw [if_neg same]
      exact inOrder.answered j admitted ((if_neg same).symm.trans answered)
  · obtain ⟨answer, _⟩ := counts.offer reading
    rw [Limiter.offer, if_neg enabled, Budget.offer, if_neg limited] at answer
    exact (Bool.eq_iff_iff.mp answer).trans decide_eq_true_iff

theorem move (inOrder : c.InOrder b first) (limited : ¬ b.Unlimited) (m : Move ι) : (c.move m).InOrder b first := by
  cases m with
  | setClock time => exact ⟨inOrder.sequential, inOrder.answered, inOrder.tally⟩
  | step i spurious =>
    cases stage : c.stage i with
    | idle =>
      simp only [Contention.move, stage]
      exact inOrder.setStage i nofun
    | timed reading =>
      simp only [Contention.move, stage]
      exact inOrder.setStage i nofun
    | loaded reading seen =>
      simp only [Contention.move, stage]
      split
      case isTrue expected =>
        rw [← expected.1]
        exact inOrder.exchange limited i reading
      case isFalse _ => exact inOrder.setStage i nofun
    | answered admitted =>
      simp only [Contention.move, stage]
      exact inOrder.setStage i nofun

theorem moves (inOrder : c.InOrder b first) (limited : ¬ b.Unlimited) (schedule : List (Move ι)) :
    (c.moves schedule).InOrder b first := by
  induction schedule generalizing c with
  | nil => exact inOrder
  | cons m schedule ih => exact ih (inOrder.move limited m)

end InOrder

/-- However threads, spurious failures and changes of the clock come in between: the answered calls
    were decided as by one thread that makes them in the order of their exchanges, each at its own
    reading, and the word is the one that this thread leaves. Of the exchanges with the same window
    start, which are those between two changes of it, exactly the first up to the limit are admitted.
    Each change raises the start by a window at least, so that at most the limit is admitted for each
    window that fits between the epoch and the latest reading, and for one more. -/
theorem admitted_in_order {windowMs : UInt64} {limit : UInt32} (window : 0 < windowMs) (any : 0 < limit)
    (epoch clock : UInt64) (schedule : List (Move ι)) :
    let b : Budget := ⟨windowMs.toNat, limit.toNat, epoch.toNat⟩
    let m := min limit.toNat Limiter.maxCountable.toNat
    let c := (start windowMs limit epoch clock).moves schedule
    (Limiter.create windowMs limit epoch).offers (c.exchanges.map (·.reading)) =
        (c.exchanges.map (·.admitted), c.limiter) ∧
      (∀ i admitted, c.stage i = .answered admitted → c.lastAnswer? i = some admitted) ∧
      (∀ before e after, c.exchanges = before ++ e :: after →
        (e.admitted = true ↔ before.countP (·.start = e.start) < m)) ∧
      (0 :: c.exchanges.map Exchange.start).IsChain (fun s s' => s' = s ∨ s + windowMs.toNat ≤ s') ∧
      c.exchanges.countP (·.admitted) ≤ m * (1 + b.latest c.exchanges / windowMs.toNat) := by
  intro b m c
  have limited : ¬ b.Unlimited := by
    rintro (zero | zero)
    · exact absurd zero (Nat.ne_of_gt (UInt64.lt_iff_toNat_lt.mp window))
    · exact absurd zero (Nat.ne_of_gt (UInt32.lt_iff_toNat_lt.mp any))
  have inOrder : c.InOrder b (.create windowMs limit epoch) := (inOrder_start _ _ _ _).moves limited schedule
  obtain ⟨w, _, tally⟩ := inOrder.tally
  exact ⟨inOrder.sequential, inOrder.answered, tally.ranked, tally.spaced, tally.admitted_le⟩

/-- The first thread reads the clock, which is then set to a later time. The second thread opens the
    window of this time and takes its only place, so the first one fails. It fails once more for no
    reason, and is turned down: its old reading opens no window. -/
theorem admitted_in_order_sample :
    let c : Contention Bool := (start 1000 1 0 500).moves
      [.step true false, .step true false, .setClock 2500, .step false false, .step false false, .step false false,
        .setClock 10, .step true false, .step true true, .step true false]
    c.exchanges = [⟨false, 2500, 41943040001, true⟩, ⟨true, 500, 41943040002, false⟩] ∧
      (0 < (1000 : UInt64) ∧ 0 < (1 : UInt32)) ∧ c.exchanges.countP (·.admitted) ≤ 1 * (1 + 2500 / 1000) := by
  intro c
  have exchanges : c.exchanges = [⟨false, 2500, 41943040001, true⟩, ⟨true, 500, 41943040002, false⟩] := by decide
  refine ⟨exchanges, by decide, ?_⟩
  exact (admitted_in_order (by decide) (by decide) 0 500 _).2.2.2.2

end Contention

end FaultSnapshot
