import RBackup2.Scheduler.Load

/-!
# What a reload leaves in memory

`reload_schedules` clears the map and refills it row by row, and it takes a stored `next_run_at`
as it is.  So a load that fails half way leaves the rows in front of the fault.

* `reloadLoop_schedules` — the map after the loop, whether it ends well or not.
* `reload_all_or_nothing_iff` — when a load that fails leaves the map as it was.
* `World.reload_next` — what a schedule waits for after a load that succeeds.
-/

set_option autoImplicit false

namespace RBackup2

instance (cron : CronCrate) (env : ReloadEnv) (s : Schedule) : Decidable (Loadable cron env s) :=
  match hcalc : calculateNextRun cron s s.lastRunAt (env.now s.id) with
  | .ok t => isTrue (.inr ⟨t, hcalc⟩)
  | .error e =>
    if hsome : s.nextRunAt.isSome then isTrue (.inl hsome)
    else isFalse fun h => h.elim hsome fun ⟨t, ht⟩ => by cases hcalc.symm.trans ht

/-! ## A load that fails -/

/-- The rows the loop gets through: those in front of the first that cannot be loaded. -/
def rowsBeforeFault (cron : CronCrate) (env : ReloadEnv) (rows : List Schedule) : List Schedule :=
  rows.takeWhile fun s => decide (Loadable cron env s)

theorem rowsBeforeFault_cons (cron : CronCrate) (env : ReloadEnv) (row : Schedule)
    (rest : List Schedule) : rowsBeforeFault cron env (row :: rest) =
      if Loadable cron env row then row :: rowsBeforeFault cron env rest else [] := by
  unfold rowsBeforeFault
  rw [List.takeWhile_cons]
  by_cases h : Loadable cron env row
  · rw [if_pos (by simpa using h), if_pos h]
  · rw [if_neg (by simpa using h), if_neg h]

/-- **The effects of the loop** are those of the rows it gets through. -/
theorem reloadLoop_effects (cron : CronCrate) (env : ReloadEnv) :
    ∀ rows : List Schedule, (reloadLoop cron env rows).1 =
      (rowsBeforeFault cron env rows).flatMap (loadEffects cron env)
  | [] => rfl
  | row :: rest => by
    rw [rowsBeforeFault_cons]
    by_cases hrow : Loadable cron env row
    · rw [(reloadLoop_cons cron env row rest).1 hrow, if_pos hrow, List.flatMap_cons,
        reloadLoop_effects cron env rest]
    · obtain ⟨e, he⟩ := (reloadLoop_cons cron env row rest).2 hrow
      rw [he, if_neg hrow]
      rfl

/-- An effect of the loop is one of the iteration for a row. -/
theorem mem_reloadLoop {cron : CronCrate} {env : ReloadEnv} {rows : List Schedule} {e : Effect}
    (h : e ∈ (reloadLoop cron env rows).1) :
    ∃ row ∈ rowsBeforeFault cron env rows, row ∈ rows ∧ e ∈ loadEffects cron env row := by
  rw [reloadLoop_effects] at h
  obtain ⟨row, hrow, he⟩ := List.mem_flatMap.1 h
  exact ⟨row, hrow, (List.takeWhile_sublist _).subset hrow, he⟩

/-- The schedules of a list in a map. -/
def ScheduleMap.ofList (l : List Schedule) : ScheduleMap := l.foldl ScheduleMap.insert .empty

/-- **The map after the loop**: the rows in front of the fault are put into it, one by one. -/
theorem reloadLoop_schedules (cron : CronCrate) (env : ReloadEnv) :
    ∀ (rows : List Schedule) (w : World), (w.applyAll (reloadLoop cron env rows).1).schedules =
      ((rowsBeforeFault cron env rows).map (·.loaded cron env)).foldl ScheduleMap.insert
        w.schedules := by
  intro rows w
  rw [reloadLoop_effects]
  induction rowsBeforeFault cron env rows generalizing w with
  | nil => rfl
  | cons row rest ih =>
    rw [List.flatMap_cons, World.applyAll_append, ih, loadEffects_schedules]
    rfl

/-- **When a load that fails leaves the map as it was**: when the SELECT fails, or no row is
    unloadable (and the load does not fail), or the map already held exactly the rows in front of
    the first unloadable one, as the load puts them there. -/
theorem reload_all_or_nothing_iff (cron : CronCrate) (env : ReloadEnv) (rows : List Schedule)
    (w : World) :
    ((∃ e, (reloadSchedules cron env rows).2 = .error e) →
      ∀ id, (w.applyAll (reloadSchedules cron env rows).1).schedules.get id =
        w.schedules.get id) ↔
    (∃ err, env.select = .error err) ∨ (∀ s ∈ rows, Loadable cron env s) ∨
      ∀ id, w.schedules.get id =
        (ScheduleMap.ofList ((rowsBeforeFault cron env rows).map (·.loaded cron env))).get id := by
  unfold reloadSchedules
  cases hsel : env.select with
  | error err => exact ⟨fun _ => .inl ⟨err, rfl⟩, fun _ _ id => rfl⟩
  | ok u =>
    have hmap : ∀ id, (w.applyAll (.clear :: (reloadLoop cron env rows).1)).schedules.get id =
        (ScheduleMap.ofList ((rowsBeforeFault cron env rows).map (·.loaded cron env))).get id := by
      intro id
      show (World.applyAll { w with schedules := .empty }
        (reloadLoop cron env rows).1).schedules.get id = _
      rw [reloadLoop_schedules]
      rfl
    constructor
    · intro h
      by_cases hok : (reloadLoop cron env rows).2 = .ok ()
      · exact .inr (.inl (reloadLoop_ok_iff.1 hok))
      · right; right
        intro id
        rw [← h ?_ id, hmap]
        cases hr : (reloadLoop cron env rows).2 with
        | error e => exact ⟨e, rfl⟩
        | ok u => exact absurd hr hok
    · rintro (⟨err, herr⟩ | hall | hsame) ⟨e, he⟩ id
      · cases herr
      · have hok := reloadLoop_ok_iff.2 hall
        cases hok.symm.trans he
      · rw [hmap, hsame]

/-- Three hourly schedules, and an edit that makes the second of them unloadable: the load fails,
    the second and the third are gone. -/
theorem failed_reload_drops_schedules :
    ¬ ∀ (cron : CronCrate) (env : ReloadEnv) (rows : List Schedule) (w : World),
      (∃ e, (reloadSchedules cron env rows).2 = .error e) →
      ∀ id, (w.applyAll (reloadSchedules cron env rows).1).schedules.get id =
        w.schedules.get id := by
  intro h
  let prior : List Schedule := [.every 3600 1 1 (some (seconds 1735689600)),
    .every 3600 2 2 (some (seconds 1735689600)), .every 3600 3 3 (some (seconds 1735689600))]
  let rows : List Schedule := [.every 3600 1 1 (some (seconds 1735689600)), .every 0 2 2 none,
    .every 3600 3 3 (some (seconds 1735689600))]
  have hlost := h .everyMinute (.succeeding (seconds 1735689000)) rows
    (.ofRows [.plain 1 "blade", .plain 2 "blade", .plain 3 "blade"] prior) ⟨_, rfl⟩ 3
  revert hlost
  decide

/-! ## A load that succeeds -/

theorem loaded_of_stored {cron : CronCrate} {env : ReloadEnv} {s : Schedule} {m : DateTime}
    (h : s.nextRunAt = some m) : s.loaded cron env = s := by
  unfold Schedule.loaded
  rw [h]

theorem loaded_of_null {cron : CronCrate} {env : ReloadEnv} {s : Schedule} {n : DateTime}
    (h : s.nextRunAt = none)
    (hn : calculateNextRun cron s s.lastRunAt (env.now s.id) = .ok n) :
    s.loaded cron env = { s with nextRunAt := some n } := by
  unfold Schedule.loaded
  rw [h, hn]

/-- The next times of a schedule from its last run and from the present. -/
theorem calculateNextRun_last {cron : CronCrate} {s : Schedule} {now t : DateTime}
    (ht : calculateNextRun cron s (some now) now = .ok t) :
    ∃ n, calculateNextRun cron s s.lastRunAt now = .ok n ∧
      (n ≤ t ↔ (s.isInterval = true → ∀ l, s.lastRunAt = some l → l ≤ now)) := by
  rcases calculateNextRun_ok ht with ⟨hc, -⟩ | ⟨hi, k, hk, hpos, rfl⟩
  · -- a cron expression does not look at the last run
    refine ⟨t, ?_, ?_⟩
    · rw [← ht]
      simp [calculateNextRun, hc]
    · refine ⟨fun _ hi => ?_, fun _ => Int.le_refl t⟩
      rw [Schedule.not_isCron_of_isInterval hi] at hc
      cases hc
  · have hc := Schedule.not_isCron_of_isInterval hi
    have hpos' : ¬ k ≤ 0 := by omega
    refine ⟨s.lastRunAt.getD now + seconds k, ?_, ?_⟩
    · cases hl : s.lastRunAt <;>
        simp [calculateNextRun, calculateNextIntervalRun, hc, hi, hk, hpos']
    · rw [Option.getD_some]
      constructor
      · intro hle _ l hl
        rw [hl, Option.getD_some] at hle
        lia
      · intro h
        cases hl : s.lastRunAt with
        | none => exact Int.le_refl _
        | some l =>
          have hle := h hi l hl
          rw [Option.getD_some]
          lia

/-- Where there is a next time from the last run, there is one from the present. -/
theorem exists_calculateNextRun_some {cron : CronCrate} {s : Schedule} {last : Option DateTime}
    {now n : DateTime} (hn : calculateNextRun cron s last now = .ok n) :
    ∃ t, calculateNextRun cron s (some now) now = .ok t := by
  rcases calculateNextRun_ok hn with ⟨hc, -⟩ | ⟨hi, k, hk, hpos, -⟩
  · refine ⟨n, ?_⟩
    rw [← hn]
    simp [calculateNextRun, hc]
  · have hc := Schedule.not_isCron_of_isInterval hi
    have hpos' : ¬ k ≤ 0 := by omega
    exact ⟨now + seconds k, by simp [calculateNextRun, calculateNextIntervalRun, hc, hi, hk, hpos']⟩

/-- **What a schedule waits for after a load that succeeds.**  A stored time is kept as it is; where
    none was stored, the time is within the next occurrence counted from the reading of the load,
    unless an interval is counted from a last run later than the reading. -/
theorem World.reload_next {cron : CronCrate} {deviceId : String} {env : ReloadEnv} {w : World}
    (hnd : ((getSchedulesForDevice w.jobs w.rows deviceId).map Schedule.id).Nodup)
    (hok : (w.reload cron deviceId env).2 = .ok ()) {id : Int} {s' : Schedule}
    (hs' : (w.reload cron deviceId env).1.schedules.get id = some s') {t : DateTime}
    (ht : calculateNextRun cron s' (some (env.now id)) (env.now id) = .ok t) :
    ∃ s ∈ getSchedulesForDevice w.jobs w.rows deviceId, s.id = id ∧ s.SameDefinition s' ∧
      ∃ n, s'.nextRunAt = some n ∧ (∀ m, s.nextRunAt = some m → n = m) ∧
        (s.nextRunAt = none → (n ≤ t ↔
          (s.isInterval = true → ∀ l, s.lastRunAt = some l → l ≤ env.now id))) := by
  have hsel : env.select = .ok () := by
    cases hsel : env.select with
    | error err =>
      unfold World.reload reloadSchedules at hok
      rw [hsel] at hok
      cases hok
    | ok u => rfl
  obtain ⟨hin, hout⟩ := World.reload_get hsel hnd hok
  have hmem : id ∈ (getSchedulesForDevice w.jobs w.rows deviceId).map Schedule.id := by
    by_contra hno
    rw [hout id hno] at hs'
    cases hs'
  obtain ⟨s, hs, rfl⟩ := List.mem_map.1 hmem
  rw [hin s hs] at hs'
  cases hs'
  have hsame := Schedule.loaded_sameDefinition cron env s
  rw [calculateNextRun_congr hsame] at ht
  refine ⟨s, hs, rfl, hsame, ?_⟩
  cases hnext : s.nextRunAt with
  | some m =>
    rw [loaded_of_stored hnext]
    exact ⟨m, hnext, fun m' hm => Option.some.inj hm, fun h => (by cases h)⟩
  | none =>
    obtain ⟨n, hn, hle⟩ := calculateNextRun_last ht
    rw [loaded_of_null hnext hn]
    exact ⟨n, rfl, fun m hm => (by cases hm), fun _ => hle⟩

end RBackup2
