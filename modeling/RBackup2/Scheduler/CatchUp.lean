import RBackup2.Lib.Clock
import RBackup2.Scheduler.Firing
import RBackup2.Scheduler.Load
import RBackup2.Scheduler.MissedRuns

/-!
# After a downtime

A client that starts again finds an interval schedule whose time has passed.  The first check
enqueues it once and starts to count from there; the runs that `count_missed_interval_runs` finds
missed are never made up for.

* `Ready.reload` — after a load every schedule in memory is enabled and has a next time.
* `reading_of_trace` — every enqueue of the run is between the first check and the last reading.
* `missed_runs_are_lost` — the enqueues and the missed runs are no more than the occurrences.
-/

set_option autoImplicit false

namespace RBackup2

open Transition

/-- How often a schedule is enqueued in a run of checks. -/
def enqueues (cron : CronCrate) (w : World) (ticks : List Tick) (id : Int) : Nat :=
  (trace (World.tick cron) (tickSends cron) w ticks).countP fun e => e.scheduleId = id

/-- The occurrences of an interval schedule after its last run, up to a time. -/
def occurrencesUpTo (last : DateTime) (n : Int) (time : DateTime) : Set Nat :=
  {k | 1 ≤ k ∧ last + k * seconds n ≤ time}

theorem ncard_occurrencesUpTo (last : DateTime) {n : Int} (hn : 0 < n) (time : DateTime) :
    (occurrencesUpTo last n time).ncard = ((time - last) / seconds n).toNat := by
  have hset : occurrencesUpTo last n time =
      Finset.Icc 1 ((time - last) / seconds n).toNat := by
    ext k
    have hq : (k : Int) * seconds n ≤ time - last ↔ (k : Int) ≤ (time - last) / seconds n :=
      (Int.le_ediv_iff_mul_le (seconds_pos hn)).symm
    rw [occurrencesUpTo, Set.mem_ofPred_eq, Finset.coe_Icc, Set.mem_Icc]
    constructor
    · rintro ⟨hk, hle⟩
      have hle' := hq.1 (by lia)
      exact ⟨hk, by lia⟩
    · rintro ⟨hk, hle⟩
      have hle' := hq.2 (by lia)
      exact ⟨hk, by lia⟩
  rw [hset, Set.ncard_coe_finset, Nat.card_Icc, Nat.add_sub_cancel]

/-! ## The load -/

theorem mem_getSchedulesForDevice_enabled {jobs : List BackupJob} {rows : List Schedule}
    {deviceId : String} {s : Schedule} (hs : s ∈ getSchedulesForDevice jobs rows deviceId) :
    s.enabled = true := by
  unfold getSchedulesForDevice at hs
  have hcond := (List.mem_filter.1 hs).2
  exact (Bool.and_eq_true_iff.1 hcond).1

section Loaded

variable {cron : CronCrate} {deviceId : String} {env : ReloadEnv} {w : World}
  (hadm : SchedulesAdmitted w.rows) (hsel : env.select = .ok ())
  (hload : (w.reload cron deviceId env).2 = .ok ())

include hadm hsel hload

theorem Ready.reload : Ready (w.reload cron deviceId env).1 := by
  obtain ⟨hin, hout⟩ := World.reload_get hsel (getSchedulesForDevice_ids w.jobs hadm deviceId) hload
  have hloadable := (World.reload_ok_iff hsel).1 hload
  intro id s hs
  by_cases hid : id ∈ (getSchedulesForDevice w.jobs w.rows deviceId).map Schedule.id
  · obtain ⟨row, hrow, rfl⟩ := List.mem_map.1 hid
    cases (hin row hrow).symm.trans hs
    refine ⟨?_, (hloadable row hrow).nextRunAt⟩
    rw [(row.loaded_sameDefinition cron env).enabled]
    exact mem_getSchedulesForDevice_enabled hrow
  · rw [hout id hid] at hs
    cases hs

/-- An interval schedule that stands one interval after its last run, or has no next time, is
    loaded with that time. -/
theorem reload_get_interval {row : Schedule} {n : Int} {last : DateTime}
    (hrow : row ∈ getSchedulesForDevice w.jobs w.rows deviceId) (hint : row.isInterval = true)
    (hn : row.intervalSeconds = some n) (hpos : 0 < n) (hlast : row.lastRunAt = some last)
    (hnext : ∀ next, row.nextRunAt = some next → next = last + seconds n) :
    ∃ s, (w.reload cron deviceId env).1.schedules.get row.id = some s ∧ s.isInterval = true ∧
      s.intervalSeconds = some n ∧ s.nextRunAt = some (last + seconds n) := by
  obtain ⟨hin, -⟩ := World.reload_get hsel (getSchedulesForDevice_ids w.jobs hadm deviceId) hload
  have hsame := row.loaded_sameDefinition cron env
  refine ⟨_, hin row hrow, ?_, hsame.intervalSeconds.trans hn, ?_⟩
  · rw [Schedule.isInterval, hsame.scheduleType]
    exact hint
  · unfold Schedule.loaded
    cases hstored : row.nextRunAt with
    | some next =>
      rw [← hnext next hstored]
      exact hstored
    | none =>
      simp only [hlast, calculateNextRun_of_last hint hn hpos cron last]

end Loaded

/-! ## The enqueues of a run -/

/-- Every enqueue of a run is between its first check and the last reading of its clock. -/
theorem reading_of_trace {cron : CronCrate} {w : World} {t : Tick} {ticks : List Tick}
    (hclock : (trace (World.tick cron) (tickReadings cron) w (t :: ticks)).Pairwise (· ≤ ·))
    {time : DateTime}
    (htime : ∀ r ∈ trace (World.tick cron) (tickReadings cron) w (t :: ticks), r ≤ time) :
    ∀ e ∈ trace (World.tick cron) (tickSends cron) w (t :: ticks),
      t.now ≤ e.reading ∧ e.reading ≤ time := by
  intro e he
  have hread : e.reading ∈ trace (World.tick cron) (tickReadings cron) w (t :: ticks) :=
    mem_trace_map (fun _ _ x hx => List.mem_cons_of_mem _ (List.mem_map_of_mem hx)) e he
  refine ⟨?_, htime _ hread⟩
  rw [trace, tickReadings, List.cons_append] at hread hclock
  rcases List.mem_cons.1 hread with heq | hmem
  · rw [heq]
  · exact (List.pairwise_cons.1 hclock).1 _ hmem

/-- **Missed runs are lost.**  A client starts after a downtime and loads its schedules.  An
    interval schedule whose time is one interval after its last run, and has passed at the first
    check, is enqueued once there.  However long the client then runs, with every call succeeding
    on a clock that never goes back, what it enqueues of the schedule and what
    `count_missed_interval_runs` said it missed at the first check are together no more than the
    occurrences since the last run: none of the missed runs is ever made up for. -/
theorem missed_runs_are_lost (cron : CronCrate) (deviceId : String) (w₀ : World)
    (hadm : SchedulesAdmitted w₀.rows) (env : ReloadEnv) (hsel : env.select = .ok ())
    (hload : (w₀.reload cron deviceId env).2 = .ok ()) (t : Tick) (ticks : List Tick) (w : World)
    (h : exec (World.tick cron) (w₀.reload cron deviceId env).1 (t :: ticks) = some w)
    (hok : Along (World.tick cron) (Tick.Succeeds cron) (w₀.reload cron deviceId env).1
      (t :: ticks))
    (hclock : (trace (World.tick cron) (tickReadings cron) (w₀.reload cron deviceId env).1
      (t :: ticks)).Pairwise (· ≤ ·))
    (time : DateTime)
    (htime : ∀ r ∈ trace (World.tick cron) (tickReadings cron) (w₀.reload cron deviceId env).1
      (t :: ticks), r ≤ time)
    (row : Schedule) (hrow : row ∈ getSchedulesForDevice w₀.jobs w₀.rows deviceId)
    (hint : row.isInterval = true) (n : Int) (hn : row.intervalSeconds = some n) (hpos : 0 < n)
    (last : DateTime) (hlast : row.lastRunAt = some last)
    (hnext : ∀ next, row.nextRunAt = some next → next = last + seconds n)
    (hdue : last + seconds n ≤ t.now) (hl : InDateRange last) (hnow : InDateRange t.now) :
    enqueues cron (w₀.reload cron deviceId env).1 [t] row.id = 1 ∧
      enqueues cron (w₀.reload cron deviceId env).1 (t :: ticks) row.id +
        countMissedIntervalRuns row none t.now ≤ (occurrencesUpTo last n time).ncard := by
  obtain ⟨s, hs, hint', hn', hnext'⟩ :=
    reload_get_interval hadm hsel hload hrow hint hn hpos hlast hnext
  have hready := Ready.reload hadm hsel hload
  have hi := seconds_pos hpos
  obtain ⟨m, hm, hrest⟩ := exec_cons.1 h
  constructor
  · -- the schedule is due at the first check
    have hfires := (hready.fires_iff hs hnext').2 hdue
    have hin := (mem_tickSends_of_succeeds hm hok.1).2 ⟨s, hs, hfires⟩
    have hone := List.count_eq_one_of_mem (tickSends_nodup hm) hin
    rw [List.count_eq_countP, List.countP_map] at hone
    rw [enqueues, trace, hm]
    simpa [trace, Function.comp_def, beq_eq_decide] using hone
  · -- the enqueues are an interval apart, and the first check is the earliest
    have hspaced := spaced_of_exec hready h hok hclock hs hint' hn'
    have hbetween := reading_of_trace hclock htime
    have hcount : enqueues cron (w₀.reload cron deviceId env).1 (t :: ticks) row.id ≤
        ((time - t.now) / seconds n + 1).toNat := by
      rw [enqueues, List.countP_eq_length_filter, ← List.length_map Enqueue.reading]
      refine Clock.length_le_of_apart hi ?_ ?_
      · rw [List.pairwise_map]
        exact hspaced.apart
      · intro r hr
        obtain ⟨e, he, rfl⟩ := List.mem_map.1 hr
        exact hbetween e (List.mem_filter.1 he).1
    have hmissed : countMissedIntervalRuns row none t.now =
        ((t.now - last) / seconds n).toNat - 1 := by
      apply countMissedIntervalRuns_eq hint hn hpos _ hl hnow
      rw [Option.none_or]
      exact hlast
    have hfirst : 1 ≤ (t.now - last) / seconds n :=
      (Int.le_ediv_iff_mul_le hi).2 (by lia)
    have hlater : 0 ≤ (time - t.now) / seconds n := by
      refine Int.ediv_nonneg (Int.sub_nonneg.2 (htime t.now ?_)) (Int.le_of_lt hi)
      rw [trace, tickReadings]
      exact List.mem_cons_self
    have hsum : (time - t.now) / seconds n + (t.now - last) / seconds n ≤
        (time - t.now + (t.now - last)) / seconds n := Int.ediv_add_ediv_le_add_ediv hi
    rw [show time - t.now + (t.now - last) = time - last by lia] at hsum
    rw [ncard_occurrencesUpTo last hpos, hmissed]
    lia

/-- An hourly schedule, ten and a half hours after its last run: nine runs are missed, and of the
    eleven occurrences up to the second check two have led to a run. -/
theorem missed_runs_are_lost_hourly :
    let t₀ := seconds 1735689600
    let row := { Schedule.every 3600 1 1 none with lastRunAt := some t₀ }
    let w₀ : World := ⟨[.plain 1 "blade"], [row], .empty⟩
    let checkAt := fun n => (⟨t₀ + seconds n, [1], fun _ => .succeeding (t₀ + seconds n)⟩ : Tick)
    let w := (w₀.reload .everyMinute "blade" (.succeeding (t₀ + seconds 37740))).1
    enqueues .everyMinute w [checkAt 37800, checkAt 41400] 1 = 2 ∧
      countMissedIntervalRuns row none (t₀ + seconds 37800) = 9 ∧
      2 + 9 ≤ (occurrencesUpTo t₀ 3600 (t₀ + seconds 41400)).ncard := by
  intro t₀ row w₀ checkAt w
  have hadm : SchedulesAdmitted w₀.rows := .ofRows (by decide)
  have hints : Intervals w := by
    intro id s hs
    rcases ScheduleMap.get_insert_cases hs with rfl | hs
    · exact ⟨rfl, 3600, rfl, by decide⟩
    · change ScheduleMap.empty.get id = some s at hs
      rw [ScheduleMap.get_empty] at hs
      cases hs
  have hok : Along (World.tick .everyMinute) (Tick.Succeeds .everyMinute) w
      [checkAt 37800, checkAt 41400] := by
    refine hints.along fun t ht id => ?_
    simp only [List.mem_cons, List.not_mem_nil, or_false] at ht
    rcases ht with rfl | rfl <;> exact ⟨_, rfl⟩
  have htwo : enqueues .everyMinute w [checkAt 37800, checkAt 41400] 1 = 2 := by decide
  have hnine : countMissedIntervalRuns row none (t₀ + seconds 37800) = 9 := by decide
  have hlost := (missed_runs_are_lost .everyMinute "blade" w₀ hadm
    (.succeeding (t₀ + seconds 37740)) rfl rfl (checkAt 37800) [checkAt 41400] _ rfl hok
    (by decide) (t₀ + seconds 41400) (by decide) row (by decide) rfl 3600 rfl (by decide) t₀ rfl
    (fun next hnext => by cases hnext) (by decide) (by decide) (by decide)).2
  refine ⟨htwo, hnine, ?_⟩
  rw [← htwo, ← hnine]
  exact hlost

end RBackup2
