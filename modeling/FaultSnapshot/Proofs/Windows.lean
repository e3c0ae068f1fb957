import FaultSnapshot.Throttle.Gate
import Mathlib.Algebra.Order.Ring.Nat

/-!
# Windows in whole numbers

A limiter keeps the start of its window and its counter in one word. A budget says the same with
whole numbers that have no largest one. The word of a limiter is always the start and the count of
the budget side by side (`Limiter.Counts`), whatever the clock shows and however long it runs, so a
limiter and every throttle that is made of one decide as the budget does
(`Budget.decides`).
-/

namespace FaultSnapshot

/-! ## Answers in order -/

section
variable {σ τ ι κ β : Type}

/-- What a machine answers to inputs in order, and its state after them. -/
def feed (step : σ → ι → β × σ) (s : σ) : List ι → List β × σ
  | [] => ([], s)
  | i :: is => ((step s i).1 :: (feed step (step s i).2 is).1, (feed step (step s i).2 is).2)

theorem feed_concat (step : σ → ι → β × σ) (s : σ) (is : List ι) (i : ι) :
    feed step s (is ++ [i]) =
      ((feed step s is).1 ++ [(step (feed step s is).2 i).1], (step (feed step s is).2 i).2) := by
  induction is generalizing s with
  | nil => rfl
  | cons j is ih => simp [feed, ih]

/-- Machines answer alike if each of their steps does. -/
theorem feed_alike {step : σ → ι → β × σ} {step' : τ → κ → β × τ} {read : ι → κ} (alike : σ → τ → Prop)
    (steps : ∀ s t i, alike s t → (step s i).1 = (step' t (read i)).1 ∧ alike (step s i).2 (step' t (read i)).2)
    {s : σ} {t : τ} (start : alike s t) (is : List ι) :
    (feed step s is).1 = (feed step' t (is.map read)).1 ∧ alike (feed step s is).2 (feed step' t (is.map read)).2 := by
  induction is generalizing s t with
  | nil => exact ⟨rfl, start⟩
  | cons i is ih =>
    obtain ⟨answer, after⟩ := steps s t i start
    obtain ⟨answers, last⟩ := ih after
    exact ⟨congrArg₂ List.cons answer answers, last⟩

end

/-! ## Budgets -/

/-- A window: its start, and how many triggers it has seen. -/
structure Window where
  start : Nat
  count : Nat
  deriving DecidableEq, Repr

/-- How many triggers may be let through in which time. A zero window or a zero limit allows all. -/
structure Budget where
  windowMs : Nat
  limit : Nat
  epoch : Nat
  deriving DecidableEq, Repr

namespace Budget

/-- The limit that is kept; greater ones are cut. -/
def effective (b : Budget) : Nat := min b.limit (2 ^ 24 - 2)

/-- The time since the epoch, zero before it. After `2 ^ 40` milliseconds it begins anew. -/
def elapsed (b : Budget) (reading : Nat) : Nat := (reading - b.epoch) % 2 ^ 40

/-- The window after one more trigger: a new one if the old one is over. -/
def count (b : Budget) (w : Window) (reading : Nat) : Window :=
  if w.start + b.windowMs ≤ b.elapsed reading then ⟨b.elapsed reading, 1⟩ else ⟨w.start, w.count + 1⟩

/-- Everything is let through. -/
def Unlimited (b : Budget) : Prop := b.windowMs = 0 ∨ b.limit = 0

instance (b : Budget) : Decidable b.Unlimited := inferInstanceAs (Decidable (_ ∨ _))

def offer (b : Budget) (w : Window) (reading : Nat) : Bool × Window :=
  if b.Unlimited then (true, w) else ((b.count w reading).count ≤ b.effective, b.count w reading)

/-- The decisions on triggers at several readings, in order, and the window after them. -/
def offers (b : Budget) (readings : List Nat) : List Bool × Window := feed b.offer ⟨0, 0⟩ readings

theorem elapsed_lt (b : Budget) (reading : Nat) : b.elapsed reading < 2 ^ 40 := Nat.mod_lt _ (Nat.two_pow_pos 40)

theorem count_start_lt {b : Budget} {w : Window} (within : w.start < 2 ^ 40) (reading : Nat) :
    (b.count w reading).start < 2 ^ 40 := by
  unfold count
  split
  · exact b.elapsed_lt reading
  · exact within

/-- The next window is the old one, with one more trigger, or starts a window later. -/
theorem count_cases (b : Budget) (w : Window) (reading : Nat) :
    b.count w reading = ⟨w.start, w.count + 1⟩ ∨
      w.start + b.windowMs ≤ b.elapsed reading ∧ b.count w reading = ⟨b.elapsed reading, 1⟩ := by
  unfold count
  split
  case isTrue ended => exact .inr ⟨ended, rfl⟩
  case isFalse _ => exact .inl rfl

theorem offers_unlimited {b : Budget} (unlimited : b.Unlimited) (readings : List Nat) :
    (b.offers readings).1 = readings.map fun _ => true := by
  unfold offers
  generalize (⟨0, 0⟩ : Window) = w
  induction readings with
  | nil => rfl
  | cons reading readings ih => simpa [feed, offer, unlimited] using ih

end Budget

/-! ## Words -/

theorem toNat_monus (a b : UInt64) : (monus a b).toNat = a.toNat - b.toNat := by
  unfold monus
  split
  case isTrue le => exact UInt64.toNat_sub_of_le a b le
  case isFalse lt =>
    rw [UInt64.le_iff_toNat_le] at lt
    exact (Nat.sub_eq_zero_of_le (Nat.le_of_not_le lt)).symm

namespace Limiter

theorem toNat_startMask_and (a : UInt64) : (a &&& startMask).toNat = a.toNat % 2 ^ 40 := by
  rw [UInt64.toNat_and, ← Nat.and_two_pow_sub_one_eq_mod]
  rfl

theorem toNat_countOf (word : UInt64) : (countOf word).toNat = word.toNat % 2 ^ 24 := by
  rw [countOf, UInt64.toNat_and, ← Nat.and_two_pow_sub_one_eq_mod]
  rfl

theorem toNat_startOf (word : UInt64) : (startOf word).toNat = word.toNat / 2 ^ 24 := by
  rw [startOf, UInt64.toNat_shiftRight, ← Nat.shiftRight_eq_div_pow]
  rfl

/-- Start and count stand side by side in a word; what does not fit is cut off. -/
theorem toNat_pack (start count : UInt64) :
    (pack start count).toNat = start.toNat % 2 ^ 40 * 2 ^ 24 + count.toNat % 2 ^ 24 := by
  have below : count.toNat % 2 ^ 24 < 2 ^ 24 := Nat.mod_lt _ (Nat.two_pow_pos 24)
  have shifted : ((start &&& startMask) <<< countBits).toNat = (start.toNat % 2 ^ 40) <<< 24 := by
    rw [UInt64.toNat_shiftLeft, toNat_startMask_and]
    show (start.toNat % 2 ^ 40) <<< 24 % 2 ^ 64 = _
    rw [Nat.shiftLeft_eq]
    omega
  have masked : (count &&& countMask).toNat = count.toNat % 2 ^ 24 := toNat_countOf count
  rw [pack, UInt64.toNat_or, shifted, masked, ← Nat.shiftLeft_add_eq_or_of_lt below, Nat.shiftLeft_eq]

theorem toNat_elapsed (l : Limiter) (reading : UInt64) :
    (l.elapsed reading).toNat = (reading.toNat - l.epoch.toNat) % 2 ^ 40 := by
  rw [elapsed, toNat_startMask_and, toNat_monus]

theorem toNat_limit_create (windowMs : UInt64) (limit : UInt32) (now : UInt64) :
    (create windowMs limit now).limit.toNat = min limit.toNat (2 ^ 24 - 2) := by
  have greatest : maxCountable.toNat = 2 ^ 24 - 2 := rfl
  simp only [create]
  split
  case isTrue le =>
    rw [UInt32.le_iff_toNat_le] at le
    omega
  case isFalse lt =>
    rw [UInt32.le_iff_toNat_le] at lt
    omega

/-- The limiter is at window `w` of the budget `b`. Its word has room for both parts of the window,
    as its counter stops one past the limit. -/
structure Counts (l : Limiter) (b : Budget) (w : Window) : Prop where
  windowMs : l.windowMs.toNat = b.windowMs
  limit : l.limit.toNat = b.effective
  epoch : l.epoch.toNat = b.epoch
  start : w.start < 2 ^ 40
  state : l.state.toNat = w.start * 2 ^ 24 + min w.count (b.effective + 1)

variable {l : Limiter} {b : Budget} {w : Window}

theorem counts_create (windowMs : UInt64) (limit : UInt32) (now : UInt64) :
    (create windowMs limit now).Counts ⟨windowMs.toNat, limit.toNat, now.toNat⟩ ⟨0, 0⟩ where
  windowMs := rfl
  limit := toNat_limit_create windowMs limit now
  epoch := rfl
  start := Nat.two_pow_pos 40
  state := by
    show (pack 0 0).toNat = 0 * 2 ^ 24 + min 0 _
    rw [toNat_pack, Nat.zero_min]
    rfl

namespace Counts

/-- The counter fits its bits. -/
theorem ceiling_lt (b : Budget) : b.effective + 1 < 2 ^ 24 := by
  unfold Budget.effective
  omega

theorem toNat_startOf (counts : l.Counts b w) : (startOf l.state).toNat = w.start := by
  have fits := ceiling_lt b
  rw [Limiter.toNat_startOf, counts.state]
  omega

theorem toNat_countOf (counts : l.Counts b w) : (countOf l.state).toNat = min w.count (b.effective + 1) := by
  have fits := ceiling_lt b
  rw [Limiter.toNat_countOf, counts.state]
  omega

theorem toNat_elapsed (counts : l.Counts b w) (reading : UInt64) :
    (l.elapsed reading).toNat = b.elapsed reading.toNat := by
  rw [Limiter.toNat_elapsed, counts.epoch, Budget.elapsed]

theorem disabled_iff (counts : l.Counts b w) : l.disabled = true ↔ b.Unlimited := by
  have noLimit : b.effective = 0 ↔ b.limit = 0 := by
    unfold Budget.effective
    omega
  simp only [disabled, Bool.or_eq_true, decide_eq_true_eq, UInt64.lt_iff_toNat_lt, UInt32.lt_iff_toNat_lt,
    counts.windowMs, counts.limit, UInt64.toNat_one, UInt32.toNat_one, Nat.lt_one_iff, noLimit]
  rfl

/-- The window of a word is over when that of the budget is. -/
theorem over_iff (counts : l.Counts b w) (limited : ¬ b.Unlimited) (reading : UInt64) :
    l.windowMs ≤ monus (l.elapsed reading) (startOf l.state) ↔ w.start + b.windowMs ≤ b.elapsed reading.toNat := by
  have positive : b.windowMs ≠ 0 := fun zero => limited (.inl zero)
  rw [UInt64.le_iff_toNat_le, toNat_monus, counts.windowMs, counts.toNat_elapsed, counts.toNat_startOf]
  omega

/-- What a word is advanced to is the next window of the budget. -/
theorem toNat_advance (counts : l.Counts b w) (limited : ¬ b.Unlimited) (reading : UInt64) :
    (l.advance (l.elapsed reading) l.state).1.toNat = (b.count w reading.toNat).start ∧
      (l.advance (l.elapsed reading) l.state).2.toNat = min (b.count w reading.toNat).count (b.effective + 1) := by
  have fits := ceiling_lt b
  have start := counts.toNat_startOf
  have ended := counts.over_iff limited reading
  unfold advance Budget.count
  by_cases new : w.start + b.windowMs ≤ b.elapsed reading.toNat
  · rw [if_pos new, if_pos (ended.mpr new)]
    refine ⟨counts.toNat_elapsed reading, ?_⟩
    show 1 = min 1 (b.effective + 1)
    omega
  · rw [if_neg new, if_neg fun old => new (ended.mp old)]
    have next : (countOf l.state + 1).toNat = min w.count (b.effective + 1) + 1 := by
      rw [UInt64.toNat_add, counts.toNat_countOf, UInt64.toNat_one]
      omega
    have ceiling : (l.limit.toUInt64 + 1).toNat = b.effective + 1 := by
      rw [UInt64.toNat_add, UInt32.toNat_toUInt64, counts.limit, UInt64.toNat_one]
      omega
    refine ⟨start, ?_⟩
    dsimp only
    split
    case isTrue le =>
      rw [UInt64.le_iff_toNat_le, next, ceiling] at le
      rw [next]
      omega
    case isFalse gt =>
      rw [UInt64.le_iff_toNat_le, next, ceiling] at gt
      rw [ceiling]
      omega

/-- The word after one more trigger is the next window. -/
theorem advance (counts : l.Counts b w) (limited : ¬ b.Unlimited) (reading : UInt64) :
    let next := l.advance (l.elapsed reading) l.state
    ({ l with state := pack next.1 next.2 } : Limiter).Counts b (b.count w reading.toNat) := by
  intro next
  have fits := ceiling_lt b
  have within := b.count_start_lt counts.start reading.toNat
  obtain ⟨start, count⟩ := counts.toNat_advance limited reading
  refine ⟨counts.windowMs, counts.limit, counts.epoch, within, ?_⟩
  show (pack next.1 next.2).toNat = _
  rw [toNat_pack, start, count]
  omega

/-- A limiter decides on a trigger as the budget does. -/
theorem offer (counts : l.Counts b w) (reading : UInt64) :
    (l.offer reading).1 = (b.offer w reading.toNat).1 ∧ (l.offer reading).2.Counts b (b.offer w reading.toNat).2 := by
  unfold Limiter.offer Budget.offer
  by_cases unlimited : b.Unlimited
  · rw [if_pos unlimited, if_pos (counts.disabled_iff.mpr unlimited)]
    exact ⟨rfl, counts⟩
  · rw [if_neg unlimited, if_neg fun disabled => unlimited (counts.disabled_iff.mp disabled)]
    refine ⟨?_, counts.advance unlimited reading⟩
    obtain ⟨_, count⟩ := counts.toNat_advance unlimited reading
    apply decide_eq_decide.mpr
    rw [UInt64.le_iff_toNat_le, UInt32.toNat_toUInt64, counts.limit, count]
    omega

end Counts

/-- The decisions on triggers at several readings, in order, and the limiter after them. -/
def offers (l : Limiter) (readings : List UInt64) : List Bool × Limiter := feed offer l readings

theorem Counts.offers (counts : l.Counts b w) (readings : List UInt64) :
    (l.offers readings).1 = (feed b.offer w (readings.map UInt64.toNat)).1 ∧
      (l.offers readings).2.Counts b (feed b.offer w (readings.map UInt64.toNat)).2 :=
  feed_alike (fun (l : Limiter) w => l.Counts b w) (fun _ _ reading counts => counts.offer reading) counts readings

end Limiter

/-! ## Throttles -/

namespace Throttle

/-- The decisions on triggers while the clocks show several times, in order. -/
def asks (t : Throttle) (times : List Clocks) : List Bool :=
  (feed (fun t clocks => t.ask clocks) t times).1

/-- A limiter on a clock decides at the times of this clock. -/
theorem asks_limited (clock : ClockKind) (l : Limiter) (times : List Clocks) :
    (limited clock l).asks times = (l.offers (times.map (·.read clock))).1 := by
  refine (feed_alike (fun t l => t = limited clock l) ?_ rfl times).1
  rintro _ l clocks rfl
  exact ⟨rfl, rfl⟩

theorem asks_unrestricted (times : List Clocks) : unrestricted.asks times = times.map fun _ => true := by
  induction times with
  | nil => rfl
  | cons clocks times ih => exact congrArg (true :: ·) ih

end Throttle

/-- A limiter, a throttle that is made of one, and the throttle of any settings decide on triggers as
    the budget in whole numbers does, at any readings in any order, however many. After any of them,
    the word of the limiter is the start of the budget's window and, in its last 24 bits, the count,
    which stops one past the limit. -/
theorem Budget.decides (windowMs : UInt64) (limit : UInt32) (epoch : UInt64) :
    let b : Budget := ⟨windowMs.toNat, limit.toNat, epoch.toNat⟩
    (∀ readings : List UInt64,
        ((Limiter.create windowMs limit epoch).offers readings).1 = (b.offers (readings.map UInt64.toNat)).1) ∧
      (∀ readings : List UInt64,
        let w := (b.offers (readings.map UInt64.toNat)).2
        ((Limiter.create windowMs limit epoch).offers readings).2.state.toNat =
            w.start * 2 ^ 24 + min w.count (b.effective + 1) ∧
          w.start < 2 ^ 40 ∧ b.effective + 1 < 2 ^ 24) ∧
      (∀ (clock : ClockKind) (times : List Clocks),
        (Throttle.limited clock (.create windowMs limit epoch)).asks times =
          (b.offers (times.map fun clocks => (clocks.read clock).toNat)).1) ∧
      ∀ (format : Format) (sink : Sink) (times : List Clocks),
        (Throttle.ofSettings ⟨windowMs, limit, format, sink⟩ epoch).asks times =
          (b.offers (times.map fun clocks => clocks.system.toNat)).1 := by
  intro b
  have counts := Limiter.counts_create windowMs limit epoch
  have limited : ∀ (clock : ClockKind) (times : List Clocks),
      (Throttle.limited clock (.create windowMs limit epoch)).asks times =
        (b.offers (times.map fun clocks => (clocks.read clock).toNat)).1 := by
    intro clock times
    rw [Throttle.asks_limited, (counts.offers _).1, List.map_map]
    rfl
  refine ⟨fun readings => (counts.offers readings).1, ?_, limited, ?_⟩
  · intro readings
    have after := (counts.offers readings).2
    exact ⟨after.state, after.start, Limiter.Counts.ceiling_lt b⟩
  · intro format sink times
    unfold Throttle.ofSettings
    split
    case isTrue disabled =>
      have unlimited : b.Unlimited := by
        simp only [Settings.throttlingDisabled, Bool.or_eq_true, beq_iff_eq] at disabled
        exact disabled.imp (congrArg UInt64.toNat) (congrArg UInt32.toNat)
      rw [Throttle.asks_unrestricted, Budget.offers_unlimited unlimited, List.map_map]
      rfl
    case isFalse _ => exact limited .system times

/-- A clock that is set back opens no window. -/
example : ((Limiter.create 1000 3 500).offers [510, 1600, 40, 1700, 1800, 2599, 2600]).1 =
    [true, true, true, true, false, false, true] := by decide

end FaultSnapshot
