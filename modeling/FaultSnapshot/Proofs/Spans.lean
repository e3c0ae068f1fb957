import FaultSnapshot.Proofs.Windows

/-!
# Windows on a clock that is never set back

Where readings never decrease, two windows of a limiter are opened at least a window apart. So any
span of clock time that is as long as a window sees two windows at most, wherever it begins and
however often the time that is kept has come to its end (`Limiter.span_bound`). But a window that is
over is not always followed by another one: this depends on the 40 bits of time that are kept
(`Limiter.renewed_exactly`).
-/

namespace FaultSnapshot

/-- How many of the triggers at some readings were let through in the span of `length` milliseconds
    that begins at `t`. -/
def letThrough (t length : Nat) (readings : List Nat) (decisions : List Bool) : Nat :=
  (readings.zip decisions).countP fun c => t ≤ c.1 ∧ c.1 < t + length ∧ c.2 = true

/-! ## Budgets -/

namespace Budget

variable {b : Budget} {w : Window} {t opened last reading n : Nat}

/-- The time that is kept does not run faster than the clock. -/
theorem elapsed_le_add (b : Budget) (later : opened ≤ reading) :
    b.elapsed reading ≤ b.elapsed opened + (reading - opened) := by
  unfold elapsed
  omega

theorem effective_pos (limited : ¬ b.Unlimited) : 0 < b.effective := by
  have limit : b.limit ≠ 0 := fun zero => limited (.inr zero)
  unfold effective
  omega

/-- What the triggers up to the reading `last` have come to: they brought the budget to window `w`,
    which was opened at the reading `opened`, and `n` of them were let through in the span of one
    window that begins at `t`. -/
structure Spent (b : Budget) (t : Nat) (w : Window) (opened last n : Nat) : Prop where
  start : w.start = b.elapsed opened
  opened_le : opened ≤ last
  /-- Nothing has come in the span before it begins. -/
  before : last < t → n = 0
  /-- In a window that was open before the span begins, there is at most what this window let through. -/
  first : opened < t → n ≤ min w.count b.effective
  /-- In a window that was opened in the span, there is the limit of the one before it besides. -/
  second : t ≤ opened → opened < t + b.windowMs → n ≤ b.effective + min w.count b.effective
  total : n ≤ 2 * b.effective

namespace Spent

theorem start_zero (b : Budget) (t : Nat) : b.Spent t ⟨0, 0⟩ 0 0 0 where
  start := by simp [elapsed]
  opened_le := Nat.le_refl 0
  before _ := rfl
  first _ := Nat.zero_le _
  second _ _ := Nat.zero_le _
  total := Nat.zero_le _

/-- One more trigger. -/
theorem step (spent : b.Spent t w opened last n) (limited : ¬ b.Unlimited) (later : last ≤ reading) :
    ∃ opened', b.Spent t (b.offer w reading).2 opened' reading
      (n + if t ≤ reading ∧ reading < t + b.windowMs ∧ (b.offer w reading).1 = true then 1 else 0) := by
  obtain ⟨start, opened_le, before, first, second, total⟩ := spent
  have positive := effective_pos limited
  simp only [offer, if_neg limited, decide_eq_true_eq]
  rcases count_cases b w reading with same | ⟨ended, new⟩
  · -- The window stays open, so its count and the number of those let through grow alike.
    rw [same]
    refine ⟨opened, start, by omega, ?_, ?_, ?_, ?_⟩ <;> dsimp only <;> split <;> omega
  · -- A span in which the old window was opened is over by now.
    have apart : b.windowMs ≤ reading - opened := by
      have slow := b.elapsed_le_add (Nat.le_trans opened_le later)
      omega
    rw [new]
    refine ⟨reading, rfl, Nat.le_refl _, ?_, ?_, ?_, ?_⟩ <;> dsimp only <;> split <;> omega

/-- Any more triggers, at readings that do not decrease. -/
theorem run (spent : b.Spent t w opened last n) (limited : ¬ b.Unlimited) (readings : List Nat)
    (forward : (last :: readings).Pairwise (· ≤ ·)) :
    n + letThrough t b.windowMs readings (feed b.offer w readings).1 ≤ 2 * b.effective := by
  induction readings generalizing w opened last n with
  | nil => exact spent.total
  | cons reading readings ih =>
    obtain ⟨later, forward⟩ := List.pairwise_cons.mp forward
    obtain ⟨opened', spent⟩ := spent.step limited (later reading List.mem_cons_self)
    have rest := ih spent forward
    simp only [letThrough, feed, List.zip_cons_cons, List.countP_cons, decide_eq_true_eq] at rest ⊢
    omega

end Spent

/-- A window that begins too late for the time that is kept is never over, so it lets through what
    its limit still allows, and nothing after that. -/
theorem count_true_of_late (limited : ¬ b.Unlimited) (late : 2 ^ 40 ≤ w.start + b.windowMs) (readings : List Nat) :
    (feed b.offer w readings).1.count true + min w.count b.effective ≤ b.effective := by
  induction readings generalizing w with
  | nil => simp [feed]
  | cons reading readings ih =>
    have within := b.elapsed_lt reading
    have same : b.count w reading = ⟨w.start, w.count + 1⟩ := by
      rcases count_cases b w reading with same | ⟨ended, _⟩
      · exact same
      · omega
    have rest := ih (w := ⟨w.start, w.count + 1⟩) late
    simp only [feed, offer, if_neg limited, same, List.count_cons, beq_iff_eq, decide_eq_true_eq] at rest ⊢
    split <;> omega

end Budget

/-! ## Limiters -/

namespace Limiter

/-- The window is over at a reading: a trigger opens the next one. -/
def renews (l : Limiter) (reading : UInt64) : Bool := l.windowMs ≤ monus (l.elapsed reading) (startOf l.state)

/-- The reading that opened the window of a limiter after triggers at several readings: that of the
    last trigger that found the window over, or `first` where none did. -/
def openedAt (l : Limiter) (first : UInt64) : List UInt64 → UInt64
  | [] => first
  | reading :: readings => (l.offer reading).2.openedAt (if l.renews reading then reading else first) readings

variable {l : Limiter} {b : Budget} {w : Window} {first reading : UInt64} {readings : List UInt64}

theorem limited_create {windowMs : UInt64} {limit : UInt32} (enabled : 1 ≤ windowMs ∧ 1 ≤ limit) (epoch : UInt64) :
    ¬ (⟨windowMs.toNat, limit.toNat, epoch.toNat⟩ : Budget).Unlimited := by
  obtain ⟨window, some⟩ := enabled
  rw [UInt64.le_iff_toNat_le, UInt64.toNat_one] at window
  rw [UInt32.le_iff_toNat_le, UInt32.toNat_one] at some
  rintro (zero | zero) <;> dsimp only at zero <;> omega

/-- In a span of clock time as long as its window, wherever the span begins, a limiter lets through at
    most twice its limit, if its readings never decrease; so does a throttle that is made of it, whose
    triggers are errors and timeouts of any tracers. -/
theorem span_bound (windowMs : UInt64) (limit : UInt32) (epoch : UInt64) (enabled : 1 ≤ windowMs ∧ 1 ≤ limit) :
    (∀ readings : List UInt64, readings.Pairwise (· ≤ ·) → ∀ t : Nat,
      letThrough t windowMs.toNat (readings.map UInt64.toNat) ((create windowMs limit epoch).offers readings).1 ≤
        2 * min limit.toNat maxCountable.toNat) ∧
      ∀ (clock : ClockKind) (times : List Clocks), (times.map (·.read clock)).Pairwise (· ≤ ·) → ∀ t : Nat,
        letThrough t windowMs.toNat (times.map fun clocks => (clocks.read clock).toNat)
            ((Throttle.limited clock (create windowMs limit epoch)).asks times) ≤
          2 * min limit.toNat maxCountable.toNat := by
  have bound : ∀ readings : List UInt64, readings.Pairwise (· ≤ ·) → ∀ t : Nat,
      letThrough t windowMs.toNat (readings.map UInt64.toNat) ((create windowMs limit epoch).offers readings).1 ≤
        2 * min limit.toNat maxCountable.toNat := by
    intro readings forward t
    rw [((counts_create windowMs limit epoch).offers readings).1]
    have numbers : (0 :: readings.map UInt64.toNat).Pairwise (· ≤ ·) := by
      refine List.pairwise_cons.mpr ⟨fun _ _ => Nat.zero_le _, List.pairwise_map.mpr ?_⟩
      exact forward.imp UInt64.le_iff_toNat_le.mp
    have spent := (Budget.Spent.start_zero _ t).run (limited_create enabled epoch) _ numbers
    rwa [Nat.zero_add] at spent
  refine ⟨bound, ?_⟩
  intro clock times forward t
  have limited := bound (times.map (·.read clock)) forward t
  rwa [← Throttle.asks_limited, List.map_map] at limited

/-- Bursts around the end of a window, at the end of the time that is kept and past it. -/
theorem span_bound_sample :
    letThrough 1099511627000 1000 [1099511626999, 1099511627000, 1099511627999, 1099511628000]
      ((create 1000 2 0).offers [1099511626999, 1099511627000, 1099511627999, 1099511628000]).1 ≤ 4 :=
  (span_bound 1000 2 0 (by decide)).1 [1099511626999, 1099511627000, 1099511627999, 1099511628000] (by decide)
    1099511627000

theorem renews_iff (counts : l.Counts b w) (limited : ¬ b.Unlimited) (reading : UInt64) :
    l.renews reading = true ↔ w.start + b.windowMs ≤ b.elapsed reading.toNat := by
  rw [renews, decide_eq_true_eq, counts.over_iff limited]

theorem openedAt_mem (l : Limiter) (first : UInt64) (readings : List UInt64) :
    l.openedAt first readings ∈ first :: readings := by
  induction readings generalizing l first with
  | nil => exact List.mem_cons_self
  | cons reading readings ih =>
    rcases List.mem_cons.mp (ih (l.offer reading).2 (if l.renews reading then reading else first)) with opened | later
    · rw [openedAt, opened]
      split
      · exact List.mem_cons_of_mem _ List.mem_cons_self
      · exact List.mem_cons_self
    · exact List.mem_cons_of_mem _ (List.mem_cons_of_mem _ later)

/-- The window starts when it is opened. -/
theorem start_openedAt (counts : l.Counts b w) (limited : ¬ b.Unlimited) (start : w.start = b.elapsed first.toNat)
    (readings : List UInt64) :
    (feed b.offer w (readings.map UInt64.toNat)).2.start = b.elapsed (l.openedAt first readings).toNat := by
  induction readings generalizing l w first with
  | nil => exact start
  | cons reading readings ih =>
    refine ih (counts.offer reading).2 ?_
    have renews := renews_iff counts limited reading
    rw [Budget.offer, if_neg limited, Budget.count]
    by_cases ended : w.start + b.windowMs ≤ b.elapsed reading.toNat
    · rw [if_pos ended, if_pos (renews.mpr ended)]
    · rw [if_neg ended, if_neg fun new => ended (renews.mp new)]
      exact start

/-- A trigger that finds the window over is let through and opens another one. -/
theorem offer_of_renews (counts : l.Counts b w) (limited : ¬ b.Unlimited) (renews : l.renews reading = true) :
    (l.offer reading).1 = true ∧ (l.offer reading).2.state = pack (l.elapsed reading) 1 := by
  have ended := (renews_iff counts limited reading).mp renews
  have enabled : ¬ l.disabled = true := fun disabled => limited (counts.disabled_iff.mp disabled)
  constructor
  · rw [(counts.offer reading).1, Budget.offer, if_neg limited, Budget.count, if_pos ended]
    exact decide_eq_true (Budget.effective_pos limited)
  · rw [offer, if_neg enabled, advance, if_pos (of_decide_eq_true renews)]

/-- A trigger that does not find the window over is one more of this window. -/
theorem offer_of_not_renews (counts : l.Counts b w) (limited : ¬ b.Unlimited) (stays : l.renews reading = false) :
    ((l.offer reading).1 = true ↔ (countOf l.state).toNat < b.effective) ∧
      startOf (l.offer reading).2.state = startOf l.state := by
  have within : ¬ w.start + b.windowMs ≤ b.elapsed reading.toNat := by
    rw [← renews_iff counts limited reading, stays]
    exact Bool.false_ne_true
  have same : b.offer w reading.toNat = (decide (w.count + 1 ≤ b.effective), ⟨w.start, w.count + 1⟩) := by
    rw [Budget.offer, if_neg limited, Budget.count, if_neg within]
  obtain ⟨answer, after⟩ := counts.offer reading
  rw [same] at answer after
  constructor
  · rw [answer, decide_eq_true_eq, counts.toNat_countOf]
    omega
  · apply UInt64.toNat_inj.mp
    rw [after.toNat_startOf, counts.toNat_startOf]

/-- Let the clock never be set back, and let a trigger come when the window of a limiter was open for
    its whole length, or longer. Then the window is over exactly if it is so by the time that is kept,
    40 bits of what has gone by since the limiter was made; it is, in the first `2 ^ 40` milliseconds.
    If the window is over, the trigger is let through and opens another one. If it is not, the trigger
    is one more of this window, and is let through if the limit still allows it. A window that was
    opened too late for the time that is kept is never over: of all later triggers, only those are let
    through that its limit still allows. -/
theorem renewed_exactly (windowMs : UInt64) (limit : UInt32) (epoch : UInt64) (enabled : 1 ≤ windowMs ∧ 1 ≤ limit)
    (readings : List UInt64) (reading : UInt64) (forward : (epoch :: (readings ++ [reading])).Pairwise (· ≤ ·))
    (due : ((create windowMs limit epoch).openedAt epoch readings).toNat + windowMs.toNat ≤ reading.toNat) :
    let l := ((create windowMs limit epoch).offers readings).2
    let kept : UInt64 → Nat := fun reading => (reading.toNat - epoch.toNat) % 2 ^ 40
    let last := kept ((create windowMs limit epoch).openedAt epoch readings) + windowMs.toNat
    (l.renews reading = true ↔ last ≤ kept reading) ∧
      (reading.toNat - epoch.toNat < 2 ^ 40 → l.renews reading = true) ∧
      (l.renews reading = true →
        (l.offer reading).1 = true ∧ (l.offer reading).2.state = pack (l.elapsed reading) 1) ∧
      (l.renews reading = false →
        ((l.offer reading).1 = true ↔ (countOf l.state).toNat < min limit.toNat maxCountable.toNat) ∧
          startOf (l.offer reading).2.state = startOf l.state) ∧
      (2 ^ 40 ≤ last → ∀ more : List UInt64,
        (l.offers more).1.count true ≤ min limit.toNat maxCountable.toNat - (countOf l.state).toNat) := by
  intro l kept last
  let b : Budget := ⟨windowMs.toNat, limit.toNat, epoch.toNat⟩
  let w : Window := (b.offers (readings.map UInt64.toNat)).2
  have created : (create windowMs limit epoch).Counts b ⟨0, 0⟩ := counts_create windowMs limit epoch
  have limited : ¬ b.Unlimited := limited_create enabled epoch
  have counts : l.Counts b w := (created.offers readings).2
  have first : (⟨0, 0⟩ : Window).start = b.elapsed epoch.toNat := by simp [b, Budget.elapsed]
  have start : w.start = kept ((create windowMs limit epoch).openedAt epoch readings) :=
    start_openedAt created limited first readings
  have renews : l.renews reading = true ↔ last ≤ kept reading := by
    rw [renews_iff counts limited reading, start]
    rfl
  refine ⟨renews, ?_, offer_of_renews counts limited, offer_of_not_renews counts limited, ?_⟩
  · intro early
    -- Nothing is cut off yet from the time that has gone by.
    have opened_ge : epoch.toNat ≤ ((create windowMs limit epoch).openedAt epoch readings).toNat := by
      rcases List.mem_cons.mp (openedAt_mem (create windowMs limit epoch) epoch readings) with same | later
      · rw [same]
      · exact UInt64.le_iff_toNat_le.mp ((List.pairwise_cons.mp forward).1 _ (List.mem_append_left _ later))
    rw [renews]
    simp only [last, kept]
    omega
  · intro late more
    have blocked := Budget.count_true_of_late (w := w) limited (by rwa [start]) (more.map UInt64.toNat)
    have used := counts.toNat_countOf
    have effective : b.effective = min limit.toNat maxCountable.toNat := rfl
    rw [← (counts.offers more).1] at blocked
    omega

/-- A window of one second, opened in the last millisecond of the time that is kept, is not over a
    second later. -/
theorem window_outlasts : ¬ ∀ (windowMs : UInt64) (limit : UInt32) (epoch : UInt64) (readings : List UInt64)
    (reading : UInt64), 1 ≤ windowMs ∧ 1 ≤ limit → (epoch :: (readings ++ [reading])).Pairwise (· ≤ ·) →
    ((create windowMs limit epoch).openedAt epoch readings).toNat + windowMs.toNat ≤ reading.toNat →
      (((create windowMs limit epoch).offers readings).2.offer reading).1 = true ∧
        ((create windowMs limit epoch).offers readings).2.renews reading = true := by
  intro renewed
  have admitted := (renewed 1000 1 0 [1099511627775] 1099511628775 (by decide) (by decide) (by decide)).1
  exact absurd admitted (by decide)

/-- That limiter lets nothing through any more, at the end of the next round neither. -/
theorem renewed_exactly_sample :
    (((create 1000 1 0).offers [1099511627775]).2.offers [1099511628775, 2199023255551]).1.count true ≤ 0 :=
  (renewed_exactly 1000 1 0 (by decide) [1099511627775] 1099511628775 (by decide) (by decide)).2.2.2.2 (by decide)
    [1099511628775, 2199023255551]

end Limiter

end FaultSnapshot
