import RBackup2.Db.Models
import RBackup2.Error

/-!
# Run times

`scheduler/schedule_calc.rs`: when a schedule runs next and whether it is due.  The `cron` crate
is a parameter: `CronCrate.fromStr` parses an expression and `CronCrate.next` is the first time
`after(&now)` yields.

* `calculateNextRun_ok` — when the calculation succeeds, and with what.
* `calculateNextRun_gt` — the time calculated from `Some(now)` and `now` is later than `now`,
  for a crate that only yields later times.
* `calculateNextRun_wholeMicros` — it is a whole number of microseconds, for a crate that yields
  whole seconds.
-/

set_option autoImplicit false

namespace RBackup2

/-- The `cron` crate, as far as the client uses it. -/
structure CronCrate where
  Parsed : Type
  /-- `Schedule::from_str`. -/
  fromStr : String → Except String Parsed
  /-- `schedule.after(&now).next()`. -/
  next : Parsed → DateTime → Option DateTime

/-- `after(&now)` only yields times later than `now`. -/
def CronCrate.Later (cron : CronCrate) : Prop :=
  ∀ p now t, cron.next p now = some t → now < t

/-- The crate works at the resolution of a second. -/
def CronCrate.WholeSeconds (cron : CronCrate) : Prop :=
  ∀ p now t, cron.next p now = some t → ∃ n, t = seconds n

def calculateNextCronRun (cron : CronCrate) (schedule : Schedule) (now : DateTime) :
    Except AppError DateTime :=
  match schedule.cronExpression with
  | none => .error (.scheduler (.invalidCronExpression "Cron expression is missing"))
  | some cronExpr =>
    let cronExprWithSeconds := "0 " ++ cronExpr
    match cron.fromStr cronExprWithSeconds with
    | .error e =>
      .error (.scheduler (.invalidCronExpression ("Failed to parse cron expression: " ++ e)))
    | .ok cronSchedule =>
      match cron.next cronSchedule now with
      | none => .error (.scheduler (.invalidCronExpression "No next run time"))
      | some next => .ok next

def calculateNextIntervalRun (schedule : Schedule) (lastRun : Option DateTime) (now : DateTime) :
    Except AppError DateTime :=
  match schedule.intervalSeconds with
  | none => .error (.scheduler (.invalidInterval "Interval seconds is missing"))
  | some intervalSeconds =>
    if intervalSeconds ≤ 0 then
      .error (.scheduler (.invalidInterval
        ("Interval must be positive, got: " ++ toString intervalSeconds)))
    else
      let interval := seconds intervalSeconds
      match lastRun with
      | some lastRunTime => .ok (lastRunTime + interval)
      | none => .ok (now + interval)

/-- `calculate_next_run`. -/
def calculateNextRun (cron : CronCrate) (schedule : Schedule) (lastRun : Option DateTime)
    (now : DateTime) : Except AppError DateTime :=
  if schedule.isCron then calculateNextCronRun cron schedule now
  else if schedule.isInterval then calculateNextIntervalRun schedule lastRun now
  else .error (.scheduler (.invalidCronExpression
    ("Unknown schedule type: " ++ schedule.scheduleType)))

/-- `is_due`. -/
def isDue (schedule : Schedule) (now : DateTime) : Bool :=
  match schedule.nextRunAt with
  | some nextRun => decide (nextRun ≤ now)
  | none => true

/-! ## When the calculation succeeds -/

theorem calculateNextCronRun_ok {cron : CronCrate} {s : Schedule} {now t : DateTime}
    (h : calculateNextCronRun cron s now = .ok t) :
    ∃ e p, s.cronExpression = some e ∧ cron.fromStr ("0 " ++ e) = .ok p ∧
      cron.next p now = some t := by
  unfold calculateNextCronRun at h
  split at h
  · cases h
  · rename_i e he
    simp only at h
    split at h
    · cases h
    · rename_i p hp
      split at h
      · cases h
      · rename_i next hnext
        cases h
        exact ⟨e, p, he, hp, hnext⟩

theorem calculateNextIntervalRun_ok {s : Schedule} {last : Option DateTime} {now t : DateTime}
    (h : calculateNextIntervalRun s last now = .ok t) :
    ∃ n, s.intervalSeconds = some n ∧ 0 < n ∧ t = last.getD now + seconds n := by
  unfold calculateNextIntervalRun at h
  split at h
  · cases h
  · rename_i n hn
    split at h
    · cases h
    · rename_i hpos
      refine ⟨n, hn, by omega, ?_⟩
      cases last with
      | none => cases h; rfl
      | some l => cases h; rfl

/-- A time comes from the cron crate or from the interval. -/
theorem calculateNextRun_ok {cron : CronCrate} {s : Schedule} {last : Option DateTime}
    {now t : DateTime} (h : calculateNextRun cron s last now = .ok t) :
    (s.isCron = true ∧ ∃ e p, s.cronExpression = some e ∧ cron.fromStr ("0 " ++ e) = .ok p ∧
      cron.next p now = some t) ∨
    (s.isInterval = true ∧ ∃ n, s.intervalSeconds = some n ∧ 0 < n ∧
      t = last.getD now + seconds n) := by
  unfold calculateNextRun at h
  split at h
  · rename_i hc
    exact .inl ⟨hc, calculateNextCronRun_ok h⟩
  · split at h
    · rename_i hi
      exact .inr ⟨hi, calculateNextIntervalRun_ok h⟩
    · cases h

/-- The calculation looks at nothing but the definition of the schedule. -/
theorem calculateNextRun_congr {s s' : Schedule} (h : s.SameDefinition s') (cron : CronCrate)
    (last : Option DateTime) (now : DateTime) :
    calculateNextRun cron s' last now = calculateNextRun cron s last now := by
  simp only [calculateNextRun, calculateNextCronRun, calculateNextIntervalRun, Schedule.isCron,
    Schedule.isInterval, h.scheduleType, h.cronExpression, h.intervalSeconds]

/-- A schedule is not of both kinds. -/
theorem Schedule.not_isCron_of_isInterval {s : Schedule} (h : s.isInterval = true) :
    s.isCron = false := by
  have htype : s.scheduleType = "interval" := by simpa [Schedule.isInterval] using h
  simp [Schedule.isCron, htype]

/-- The calculation of an interval schedule from its enqueue reading. -/
theorem calculateNextRun_interval {cron : CronCrate} {s : Schedule} {now t : DateTime} {n : Int}
    (hi : s.isInterval = true) (hn : s.intervalSeconds = some n)
    (h : calculateNextRun cron s (some now) now = .ok t) : 0 < n ∧ t = now + seconds n := by
  rcases calculateNextRun_ok h with ⟨hc, -⟩ | ⟨-, m, hm, hpos, ht⟩
  · rw [Schedule.not_isCron_of_isInterval hi] at hc
    cases hc
  · cases hn.symm.trans hm
    exact ⟨hpos, ht⟩

/-- The time calculated at an enqueue reading is later than the reading. -/
theorem calculateNextRun_gt {cron : CronCrate} (hcron : cron.Later) {s : Schedule}
    {now t : DateTime} (h : calculateNextRun cron s (some now) now = .ok t) : now < t := by
  rcases calculateNextRun_ok h with ⟨-, e, p, -, -, hnext⟩ | ⟨-, n, -, hpos, rfl⟩
  · exact hcron p now t hnext
  · simp only [Option.getD_some, seconds]
    lia

/-- The time calculated from whole microseconds is a whole number of microseconds. -/
theorem calculateNextRun_wholeMicros {cron : CronCrate} (hcron : cron.WholeSeconds) {s : Schedule}
    {last : Option DateTime} {now t : DateTime}
    (hbase : s.isInterval = true → WholeMicros (last.getD now))
    (h : calculateNextRun cron s last now = .ok t) : WholeMicros t := by
  rcases calculateNextRun_ok h with ⟨-, e, p, -, -, hnext⟩ | ⟨hi, n, -, -, rfl⟩
  · obtain ⟨n, rfl⟩ := hcron p now t hnext
    simp only [WholeMicros, seconds]
    lia
  · exact wholeMicros_add_seconds (hbase hi) n

/-- The crate on `* * * * *`, which is the only expression this one takes. -/
def CronCrate.everyMinute : CronCrate where
  Parsed := Unit
  fromStr := fun e => if e = "0 * * * * *" then .ok () else .error "Invalid expression"
  next := fun _ now => some (seconds ((now / seconds 60 + 1) * 60))

theorem CronCrate.everyMinute_later : CronCrate.everyMinute.Later := by
  intro p now t h
  cases h
  simp only [seconds]
  lia

theorem CronCrate.everyMinute_wholeSeconds : CronCrate.everyMinute.WholeSeconds := by
  intro p now t h
  cases h
  exact ⟨_, rfl⟩

end RBackup2
