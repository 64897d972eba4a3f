import Mathlib.Data.Set.Card
import Mathlib.Order.Interval.Finset.Nat
import RBackup2.Scheduler.ScheduleCalc

/-!
# Missed runs

`scheduler/missed_runs.rs`: whether a schedule has missed its time, and how many runs an interval
schedule has missed since its last.

* `countMissedIntervalRuns_eq` — the number in whole intervals, without the detour over seconds.
* `missed_runs_count` — it is the number of occurrences after the first due one that are not
  later than the reading.
-/

set_option autoImplicit false

namespace RBackup2

/-! ## chrono -/

/-- `DateTime::<Utc>::MIN_UTC`, the start of the year -262143. -/
def minUtc : DateTime := seconds (-8334601228800)

/-- `DateTime::<Utc>::MAX_UTC`, the end of the year 262142. -/
def maxUtc : DateTime := seconds 8210266876800 - 1

/-- What a `DateTime<Utc>` can be. -/
def InDateRange (t : DateTime) : Prop := minUtc ≤ t ∧ t ≤ maxUtc

instance (t : DateTime) : Decidable (InDateRange t) := inferInstanceAs (Decidable (_ ∧ _))

/-- `Duration::num_seconds`, which rounds towards zero. -/
def numSeconds (d : Int) : Int := d.tdiv 1000000000

/-- `as usize` of an `i64`, on a target of 64 bits. -/
def asUsize (n : Int) : Nat := (n % 2 ^ 64).toNat

/-! ## The functions -/

/-- `DEFAULT_GRACE_PERIOD_MINUTES`. -/
def defaultGracePeriodMinutes : Int := 5

/-- `is_run_missed`. -/
def isRunMissed (schedule : Schedule) (now : DateTime) (gracePeriodMinutes : Option Int) : Bool :=
  let gracePeriod := gracePeriodMinutes.getD defaultGracePeriodMinutes
  match schedule.nextRunAt with
  | some nextRun => decide (nextRun + seconds (60 * gracePeriod) < now)
  | none => false

/-- `count_missed_interval_runs`. -/
def countMissedIntervalRuns (schedule : Schedule) (lastRun : Option DateTime) (now : DateTime) :
    Nat :=
  if schedule.isInterval = false then 0
  else
    match schedule.intervalSeconds with
    | none => 0
    | some intervalSeconds =>
      if intervalSeconds ≤ 0 then 0
      else
        match lastRun.or schedule.lastRunAt with
        | none => 0
        | some lastRunTime =>
          let elapsed := now - lastRunTime
          let intervalDuration := seconds intervalSeconds
          if elapsed < intervalDuration then 0
          else
            let missed := asUsize ((numSeconds elapsed).tdiv intervalSeconds)
            missed - 1

/-- A run that is missed is due, if the grace period is not negative. -/
theorem isDue_of_isRunMissed {s : Schedule} {now : DateTime} {grace : Option Int}
    (hgrace : 0 ≤ grace.getD defaultGracePeriodMinutes) (h : isRunMissed s now grace = true) :
    isDue s now = true := by
  unfold isRunMissed at h
  unfold isDue
  cases hnext : s.nextRunAt with
  | none => simp [hnext] at h
  | some next =>
    rw [hnext] at h
    simp only [decide_eq_true_eq, seconds] at h ⊢
    lia

/-! ## Counting in intervals -/

theorem seconds_pos {n : Int} (h : 0 < n) : 0 < seconds n := by
  unfold seconds
  omega

/-- The detour over whole seconds loses nothing. -/
theorem numSeconds_tdiv {d : Int} (hd : 0 ≤ d) (n : Int) :
    (numSeconds d).tdiv n = d / seconds n := by
  have hq : 0 ≤ d / 1000000000 := Int.ediv_nonneg hd (by decide)
  rw [numSeconds, Int.tdiv_eq_ediv_of_nonneg hd, Int.tdiv_eq_ediv_of_nonneg hq,
    Int.ediv_ediv_of_nonneg (by decide), seconds, Int.mul_comm]

/-- No number of intervals between two dates overflows. -/
theorem asUsize_intervals {last now : DateTime} {n : Int} (hlast : InDateRange last)
    (hnow : InDateRange now) (hd : 0 ≤ now - last) (hn : 0 < n) :
    asUsize ((now - last) / seconds n) = ((now - last) / seconds n).toNat := by
  have hnonneg : 0 ≤ (now - last) / seconds n :=
    Int.ediv_nonneg hd (Int.le_of_lt (seconds_pos hn))
  have hlt : (now - last) / seconds n < 2 ^ 64 := by
    refine Int.ediv_lt_of_lt_mul (seconds_pos hn) ?_
    have hmin := hlast.1
    have hmax := hnow.2
    simp only [minUtc, maxUtc, seconds] at *
    lia
  rw [asUsize, Int.emod_eq_of_lt hnonneg hlt]

/-- The occurrences from one on that are not later than the reading, each calculated from the one
    before, `fuel` of them at most. -/
def occurrences (cron : CronCrate) (s : Schedule) (now : DateTime) : Nat → DateTime → List DateTime
  | 0, _ => []
  | fuel + 1, t =>
    if t ≤ now then
      t :: match calculateNextRun cron s (some t) now with
        | .ok next => occurrences cron s now fuel next
        | .error _ => []
    else []

section Interval

variable {s : Schedule} {n : Int} (hs : s.isInterval = true) (hn : s.intervalSeconds = some n)
  (hpos : 0 < n)

include hs hn hpos

/-- **The count in whole intervals.** -/
theorem countMissedIntervalRuns_eq {lastRun : Option DateTime} {last now : DateTime}
    (hlast : lastRun.or s.lastRunAt = some last) (hl : InDateRange last) (hnow : InDateRange now) :
    countMissedIntervalRuns s lastRun now = ((now - last) / seconds n).toNat - 1 := by
  have hle : ¬ n ≤ 0 := Int.not_le.2 hpos
  simp only [countMissedIntervalRuns, hs, hn, hle, hlast, Bool.true_eq_false, if_false]
  split
  · -- less than one interval has passed
    rename_i hlt
    have hq : (now - last) / seconds n < 1 := by
      refine Int.ediv_lt_of_lt_mul (seconds_pos hpos) ?_
      rw [Int.one_mul]
      exact hlt
    lia
  · rename_i hge
    have hd : 0 ≤ now - last :=
      Int.le_trans (Int.le_of_lt (seconds_pos hpos)) (Int.not_lt.1 hge)
    rw [numSeconds_tdiv hd, asUsize_intervals hl hnow hd hpos]

theorem calculateNextRun_of_last (cron : CronCrate) (last now : DateTime) :
    calculateNextRun cron s (some last) now = .ok (last + seconds n) := by
  have hle : ¬ n ≤ 0 := Int.not_le.2 hpos
  simp [calculateNextRun, Schedule.not_isCron_of_isInterval hs, hs, calculateNextIntervalRun, hn,
    hle]

/-- With enough fuel there is one for each whole interval, and one at the start. -/
theorem length_occurrences (cron : CronCrate) (now : DateTime) :
    ∀ (fuel : Nat) (t : DateTime), (now - t) / seconds n + 1 ≤ fuel →
      (occurrences cron s now fuel t).length = ((now - t) / seconds n + 1).toNat
  | 0, t, h => by
    rw [occurrences]
    have hle : (now - t) / seconds n + 1 ≤ 0 := h
    simp only [List.length_nil]
    lia
  | fuel + 1, t, h => by
    have hstep : (now - (t + seconds n)) / seconds n = (now - t) / seconds n - 1 := by
      rw [show now - (t + seconds n) = (now - t) + (-1) * seconds n by lia,
        Int.add_mul_ediv_right _ _ (Int.ne_of_gt (seconds_pos hpos))]
      rfl
    rw [occurrences, calculateNextRun_of_last hs hn hpos]
    split
    · rename_i hle
      have hq : 0 ≤ (now - t) / seconds n :=
        Int.ediv_nonneg (by lia) (Int.le_of_lt (seconds_pos hpos))
      have ih := length_occurrences cron now fuel (t + seconds n) (by rw [hstep]; lia)
      rw [List.length_cons, ih, hstep]
      lia
    · rename_i hlt
      have hq : (now - t) / seconds n < 0 :=
        Int.ediv_neg_of_neg_of_pos (by lia) (seconds_pos hpos)
      rw [List.length_nil]
      lia

omit hs hn in
/-- An occurrence after the first is one of so many whole intervals. -/
theorem occurrence_le_iff {last now : DateTime} {k : Nat} (hk : 1 ≤ k) :
    last + seconds n + k * seconds n ≤ now ↔ k ≤ ((now - last) / seconds n).toNat - 1 := by
  have hq : ((k : Int) + 1) * seconds n ≤ now - last ↔ (k : Int) + 1 ≤ (now - last) / seconds n :=
    (Int.le_ediv_iff_mul_le (seconds_pos hpos)).symm
  have hmul : ((k : Int) + 1) * seconds n = seconds n + k * seconds n := by
    rw [Int.add_mul, Int.one_mul, Int.add_comm]
  rw [hmul] at hq
  constructor
  · intro h
    have hle := hq.1 (by lia)
    lia
  · intro h
    have hle := hq.2 (by lia)
    lia

end Interval

/-- **The count of missed runs** is the number of occurrences after the first due one that are not
later than the reading: as many as the run of occurrences calculated one after the other has
behind its first.  There is none before the first due one, and one more with each interval. -/
theorem missed_runs_count (cron : CronCrate) (s : Schedule) (hs : s.isInterval = true) (n : Int)
    (hn : s.intervalSeconds = some n) (hpos : 0 < n) (lastRun : Option DateTime) (last : DateTime)
    (hlast : lastRun.or s.lastRunAt = some last) (hl : InDateRange last) (now : DateTime)
    (hnow : InDateRange now) :
    ∃ first, calculateNextRun cron s (some last) now = .ok first ∧
      countMissedIntervalRuns s lastRun now =
        {k : Nat | 1 ≤ k ∧ first + k * seconds n ≤ now}.ncard ∧
      (∃ enough, ∀ fuel, enough ≤ fuel →
        countMissedIntervalRuns s lastRun now =
          (occurrences cron s now fuel first).length - 1) ∧
      (now < first ∨ now < last → countMissedIntervalRuns s lastRun now = 0) ∧
      (last + seconds n ≤ now → InDateRange (now + seconds n) →
        countMissedIntervalRuns s lastRun (now + seconds n) =
          countMissedIntervalRuns s lastRun now + 1) := by
  have hi : 0 < seconds n := seconds_pos hpos
  have hcount := countMissedIntervalRuns_eq hs hn hpos hlast hl hnow
  refine ⟨last + seconds n, calculateNextRun_of_last hs hn hpos cron last now, ?_, ?_, ?_, ?_⟩
  · have hset : {k : Nat | 1 ≤ k ∧ last + seconds n + k * seconds n ≤ now} =
        Finset.Icc 1 (((now - last) / seconds n).toNat - 1) := by
      ext k
      rw [Set.mem_ofPred_eq, Finset.coe_Icc, Set.mem_Icc]
      exact and_congr_right fun hk => occurrence_le_iff hpos hk
    rw [hset, Set.ncard_coe_finset, Nat.card_Icc, Nat.add_sub_cancel, hcount]
  · refine ⟨((now - (last + seconds n)) / seconds n + 1).toNat, fun fuel hfuel => ?_⟩
    have hstep : (now - (last + seconds n)) / seconds n + 1 = (now - last) / seconds n := by
      rw [show now - (last + seconds n) = (now - last) + (-1) * seconds n by lia,
        Int.add_mul_ediv_right _ _ (Int.ne_of_gt hi)]
      lia
    rw [length_occurrences hs hn hpos cron now fuel _ (Int.toNat_le.1 hfuel), hstep, hcount]
  · intro hbefore
    have hlt : (now - last) / seconds n < 1 := by
      refine Int.ediv_lt_of_lt_mul hi ?_
      rcases hbefore with h | h <;> lia
    rw [hcount]
    lia
  · intro hge hnow'
    have hcount' := countMissedIntervalRuns_eq hs hn hpos hlast hl hnow'
    have hstep : (now + seconds n - last) / seconds n = (now - last) / seconds n + 1 := by
      rw [show now + seconds n - last = (now - last) + 1 * seconds n by lia,
        Int.add_mul_ediv_right _ _ (Int.ne_of_gt hi)]
    have hone : 1 ≤ (now - last) / seconds n :=
      (Int.le_ediv_iff_mul_le hi).2 (by lia)
    rw [hcount', hcount, hstep]
    lia

/-- Five hours after the last run of an hourly schedule, as in the tests. -/
theorem missed_runs_count_hourly :
    countMissedIntervalRuns (.every 3600 1 1 none) (some 0) (seconds 18000) = 4 ∧
      ∃ first, calculateNextRun .everyMinute (.every 3600 1 1 none) (some 0) (seconds 18000) =
          .ok first ∧
        {k : Nat | 1 ≤ k ∧ first + k * seconds 3600 ≤ seconds 18000}.ncard = 4 := by
  obtain ⟨first, hfirst, hcount, -⟩ := missed_runs_count .everyMinute (.every 3600 1 1 none)
    (by decide) 3600 rfl (by decide) (some 0) 0 rfl (by decide) (seconds 18000) (by decide)
  have hfour : countMissedIntervalRuns (.every 3600 1 1 none) (some 0) (seconds 18000) = 4 := by
    decide
  exact ⟨hfour, first, hfirst, hcount.symm.trans hfour⟩

end RBackup2
