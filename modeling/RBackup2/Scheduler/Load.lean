import RBackup2.Scheduler.Tick

/-!
# Loading the schedules

`start` loads the schedules and then enters the check loop.  The load is one loop over the rows
whose `?` on `calculate_next_run` is an exit for all of them; the check loop, and the UPDATE inside
the load, only log an error and go on.

* `reloadLoop_ok_iff` — a load succeeds exactly when every row is loadable on its own.
* `World.reload_get` — what a load that succeeds leaves in memory.
* `load_isolates_iff` — the loadable rows are in memory and the check loop runs exactly when no
  row of the device is unloadable.
-/

set_option autoImplicit false

namespace RBackup2

/-- How `Scheduler::start` goes on after its initial load. -/
inductive Started where
  /-- It returns the error, and `main` leaves its `select!` and ends. -/
  | failed (e : AppError)
  /-- It enters the check loop. -/
  | checking

/-- `Scheduler::start`, up to the first tick. -/
def World.start (cron : CronCrate) (deviceId : String) (env : ReloadEnv) (w : World) :
    World × Started :=
  match w.reload cron deviceId env with
  | (w, .error e) => (w, .failed e)
  | (w, .ok ()) => (w, .checking)

/-- A row that can be loaded on its own. -/
def Loadable (cron : CronCrate) (env : ReloadEnv) (s : Schedule) : Prop :=
  s.nextRunAt.isSome ∨ ∃ t, calculateNextRun cron s s.lastRunAt (env.now s.id) = .ok t

/-- The schedule as it is put into the map. -/
def Schedule.loaded (cron : CronCrate) (env : ReloadEnv) (s : Schedule) : Schedule :=
  match s.nextRunAt with
  | some _ => s
  | none =>
    match calculateNextRun cron s s.lastRunAt (env.now s.id) with
    | .ok next => { s with nextRunAt := some next }
    | .error _ => s

theorem Schedule.loaded_sameDefinition (cron : CronCrate) (env : ReloadEnv) (s : Schedule) :
    s.SameDefinition (s.loaded cron env) := by
  unfold Schedule.loaded
  split
  · exact .refl s
  · split
    · exact .setTimes s s.lastRunAt _
    · exact .refl s

theorem Loadable.nextRunAt {cron : CronCrate} {env : ReloadEnv} {s : Schedule}
    (h : Loadable cron env s) : (s.loaded cron env).nextRunAt.isSome := by
  unfold Schedule.loaded
  rcases h with h | ⟨t, ht⟩
  · split
    · exact h
    · rename_i hnone
      rw [hnone] at h
      cases h
  · split
    · rename_i next hsome
      rw [hsome]
      rfl
    · rw [ht]
      rfl

/-! ## The loop -/

/-- The effects of one iteration that is not left early. -/
def loadEffects (cron : CronCrate) (env : ReloadEnv) (s : Schedule) : List Effect :=
  (if s.nextRunAt = none then updateEffect (env.update s.id) s.jobId
      (s.lastRunAt.getD (env.now s.id)) (s.loaded cron env).nextRunAt else []) ++
    [.insert (s.loaded cron env)]

/-- The loop goes on after a loadable row, and ends at another one. -/
theorem reloadLoop_cons (cron : CronCrate) (env : ReloadEnv) (s : Schedule)
    (rest : List Schedule) :
    (Loadable cron env s → reloadLoop cron env (s :: rest) =
      (loadEffects cron env s ++ (reloadLoop cron env rest).1, (reloadLoop cron env rest).2)) ∧
    (¬ Loadable cron env s → ∃ e, reloadLoop cron env (s :: rest) = ([], .error e)) := by
  cases hnext : s.nextRunAt with
  | some next =>
    refine ⟨fun _ => ?_, fun h => absurd (.inl (by rw [hnext]; rfl)) h⟩
    simp [reloadLoop, loadEffects, Schedule.loaded, hnext]
  | none =>
    cases hcalc : calculateNextRun cron s s.lastRunAt (env.now s.id) with
    | ok next =>
      refine ⟨fun _ => ?_, fun h => absurd (.inr ⟨next, hcalc⟩) h⟩
      simp [reloadLoop, loadEffects, Schedule.loaded, hnext, hcalc]
    | error e =>
      refine ⟨?_, fun _ => ⟨e, by simp [reloadLoop, hnext, hcalc]⟩⟩
      rintro (h | ⟨t, ht⟩)
      · rw [hnext] at h
        cases h
      · cases hcalc.symm.trans ht

theorem reloadLoop_ok_iff {cron : CronCrate} {env : ReloadEnv} {l : List Schedule} :
    (reloadLoop cron env l).2 = .ok () ↔ ∀ s ∈ l, Loadable cron env s := by
  induction l with
  | nil => exact ⟨fun _ s hs => (by cases hs), fun _ => rfl⟩
  | cons s rest ih =>
    rw [List.forall_mem_cons, ← ih]
    by_cases hs : Loadable cron env s
    · rw [(reloadLoop_cons cron env s rest).1 hs]
      exact ⟨fun h => ⟨hs, h⟩, fun h => h.2⟩
    · obtain ⟨e, he⟩ := (reloadLoop_cons cron env s rest).2 hs
      rw [he]
      constructor
      · intro h; cases h
      · intro h; exact absurd h.1 hs

theorem mem_updateEffect {o : DbOutcome} {jobId : Uuid} {last : DateTime} {next : Option DateTime}
    {e : Effect} (h : e ∈ updateEffect o jobId last next) : e = .updateRows jobId last next := by
  unfold updateEffect at h
  split at h
  · exact List.mem_singleton.1 h
  · cases h

/-- An iteration inserts its row, after an UPDATE if the row has no next time. -/
theorem mem_loadEffects {cron : CronCrate} {env : ReloadEnv} {s : Schedule} {e : Effect}
    (h : e ∈ loadEffects cron env s) : e = .insert (s.loaded cron env) ∨
      (s.nextRunAt = none ∧ e = .updateRows s.jobId (s.lastRunAt.getD (env.now s.id))
        (s.loaded cron env).nextRunAt) := by
  unfold loadEffects at h
  rcases List.mem_append.1 h with h | h
  · split at h
    · exact .inr ⟨‹_›, mem_updateEffect h⟩
    · cases h
  · exact .inl (List.mem_singleton.1 h)

/-- One iteration puts its row into the map. -/
theorem loadEffects_schedules (cron : CronCrate) (env : ReloadEnv) (s : Schedule) (w : World) :
    (w.applyAll (loadEffects cron env s)).schedules = w.schedules.insert (s.loaded cron env) := by
  have hupd : ∀ es : List Effect, es = [] ∨ (∃ j l n, es = [.updateRows j l n]) →
      (w.applyAll (es ++ [.insert (s.loaded cron env)])).schedules =
        w.schedules.insert (s.loaded cron env) := by
    rintro es (rfl | ⟨j, l, n, rfl⟩) <;> rfl
  rw [loadEffects, hupd]
  split
  · unfold updateEffect
    split
    · exact .inr ⟨_, _, _, rfl⟩
    · exact .inl rfl
  · exact .inl rfl

/-- It changes no other entry. -/
theorem loadEffects_get (cron : CronCrate) (env : ReloadEnv) (s : Schedule) (w : World) (k : Int) :
    (w.applyAll (loadEffects cron env s)).schedules.get k =
      if k = s.id then some (s.loaded cron env) else w.schedules.get k := by
  have hid : (s.loaded cron env).id = s.id := (Schedule.loaded_sameDefinition cron env s).id
  rw [loadEffects_schedules, ScheduleMap.get_insert, hid]

theorem reloadLoop_get {cron : CronCrate} {env : ReloadEnv} :
    ∀ {l : List Schedule} {w : World}, (l.map Schedule.id).Nodup →
      (∀ s ∈ l, Loadable cron env s) →
      (∀ s ∈ l, (w.applyAll (reloadLoop cron env l).1).schedules.get s.id =
        some (s.loaded cron env)) ∧
      ∀ k, k ∉ l.map Schedule.id →
        (w.applyAll (reloadLoop cron env l).1).schedules.get k = w.schedules.get k
  | [], w, _, _ => ⟨fun s hs => absurd hs List.not_mem_nil, fun k _ => rfl⟩
  | s :: rest, w, hnd, hl => by
    obtain ⟨hs, hnd⟩ := List.nodup_cons.1 hnd
    obtain ⟨hfirst, hrest⟩ := List.forall_mem_cons.1 hl
    have hstep := loadEffects_get cron env s w
    obtain ⟨hin, hout⟩ := reloadLoop_get (w := w.applyAll (loadEffects cron env s)) hnd hrest
    rw [(reloadLoop_cons cron env s rest).1 hfirst]
    simp only [World.applyAll_append]
    refine ⟨?_, ?_⟩
    · intro u hu
      rcases List.mem_cons.1 hu with rfl | hu
      · rw [hout u.id hs, hstep, if_pos rfl]
      · exact hin u hu
    · intro k hk
      rw [List.map_cons, List.mem_cons, not_or] at hk
      rw [hout k hk.2, hstep, if_neg hk.1]

/-! ## The whole load -/

theorem World.reload_ok_iff {cron : CronCrate} {deviceId : String} {env : ReloadEnv} {w : World}
    (hsel : env.select = .ok ()) : (w.reload cron deviceId env).2 = .ok () ↔
      ∀ s ∈ getSchedulesForDevice w.jobs w.rows deviceId, Loadable cron env s := by
  unfold World.reload reloadSchedules
  rw [hsel]
  exact reloadLoop_ok_iff

/-- **A load that succeeds** leaves exactly the rows of the device in memory. -/
theorem World.reload_get {cron : CronCrate} {deviceId : String} {env : ReloadEnv} {w : World}
    (hsel : env.select = .ok ())
    (hnd : ((getSchedulesForDevice w.jobs w.rows deviceId).map Schedule.id).Nodup)
    (hok : (w.reload cron deviceId env).2 = .ok ()) :
    (∀ s ∈ getSchedulesForDevice w.jobs w.rows deviceId,
      (w.reload cron deviceId env).1.schedules.get s.id = some (s.loaded cron env)) ∧
    ∀ k, k ∉ (getSchedulesForDevice w.jobs w.rows deviceId).map Schedule.id →
      (w.reload cron deviceId env).1.schedules.get k = none := by
  have hl := (World.reload_ok_iff hsel).1 hok
  obtain ⟨hin, hout⟩ := reloadLoop_get (w := { w with schedules := .empty }) hnd hl
  unfold World.reload reloadSchedules
  rw [hsel]
  refine ⟨hin, fun k hk => (hout k hk).trans ?_⟩
  exact ScheduleMap.get_empty k

/-! ## Fault isolation -/

/-- The row is in memory, as it is defined, and waits for a time. -/
def World.Holds (w : World) (s : Schedule) : Prop :=
  ∃ s', w.schedules.get s.id = some s' ∧ s.SameDefinition s' ∧ s'.nextRunAt.isSome

/-- **Exactly when a load isolates faults**: the loadable rows are in memory and the check loop
    runs if and only if every row of the device is loadable, that is, if there is no fault. -/
theorem load_isolates_iff (cron : CronCrate) (deviceId : String) (env : ReloadEnv) (w : World)
    (hadm : SchedulesAdmitted w.rows) (hsel : env.select = .ok ()) :
    ((w.start cron deviceId env).2 = .checking ∧
      ∀ s ∈ getSchedulesForDevice w.jobs w.rows deviceId, Loadable cron env s →
        (w.start cron deviceId env).1.Holds s) ↔
    ∀ s ∈ getSchedulesForDevice w.jobs w.rows deviceId, Loadable cron env s := by
  have hstart : (w.start cron deviceId env).1 = (w.reload cron deviceId env).1 ∧
      ((w.start cron deviceId env).2 = .checking ↔ (w.reload cron deviceId env).2 = .ok ()) := by
    unfold World.start
    cases hr : w.reload cron deviceId env with
    | mk w' r =>
      cases r with
      | error e => exact ⟨rfl, ⟨fun h => (by cases h), fun h => (by cases h)⟩⟩
      | ok u => exact ⟨rfl, ⟨fun _ => rfl, fun _ => rfl⟩⟩
  rw [hstart.1, hstart.2]
  constructor
  · intro h
    exact (World.reload_ok_iff hsel).1 h.1
  · intro hall
    have hok := (World.reload_ok_iff hsel).2 hall
    have hnd := getSchedulesForDevice_ids w.jobs hadm deviceId
    refine ⟨hok, fun s hs hload => ?_⟩
    exact ⟨_, (World.reload_get hsel hnd hok).1 s hs, s.loaded_sameDefinition cron env,
      hload.nextRunAt⟩

/-- A load in which the database never fails, with one reading for all. -/
def ReloadEnv.succeeding (now : DateTime) : ReloadEnv := ⟨.ok (), fun _ => now, fun _ => .done⟩

/-- Rows the schema admits: two schedules with valid definitions are loaded, and the check loop
    runs. -/
theorem load_isolates_iff_two_rows :
    let w : World := ⟨[.plain 1 "blade"],
      [.every 3600 1 1 none, .cronAt "* * * * *" 2 1 (some 0)], .empty⟩
    let env := ReloadEnv.succeeding (seconds 1735689600)
    (w.start .everyMinute "blade" env).2 = .checking ∧
      ∀ s ∈ w.rows, (w.start .everyMinute "blade" env).1.Holds s := by
  intro w env
  have hadm : SchedulesAdmitted w.rows := .ofRows (by decide)
  have hselected : getSchedulesForDevice w.jobs w.rows "blade" = w.rows := rfl
  have hloadable : ∀ s ∈ getSchedulesForDevice w.jobs w.rows "blade",
      Loadable .everyMinute env s := by
    intro s hs
    rw [hselected] at hs
    rcases List.mem_cons.1 hs with rfl | hs
    · exact .inr ⟨seconds 1735693200, rfl⟩
    · rw [List.mem_singleton.1 hs]
      exact .inl rfl
  obtain ⟨hchecking, hholds⟩ := (load_isolates_iff .everyMinute "blade" env w hadm rfl).2 hloadable
  rw [hselected] at hholds hloadable
  exact ⟨hchecking, fun s hs => hholds s hs (hloadable s hs)⟩

/-- An interval of 0 passes the constraints and stops the load before an hourly schedule: the
    check loop is never entered. -/
theorem unloadable_row_stops_start :
    ¬ ∀ (cron : CronCrate) (deviceId : String) (env : ReloadEnv) (w : World),
      SchedulesAdmitted w.rows → env.select = .ok () →
      (w.start cron deviceId env).2 = .checking ∧
      ∀ s ∈ getSchedulesForDevice w.jobs w.rows deviceId, Loadable cron env s →
        (w.start cron deviceId env).1.Holds s := by
  intro h
  have hadm : SchedulesAdmitted [Schedule.every 0 1 1 none, Schedule.every 3600 2 1 none] :=
    .ofRows (by decide)
  have hstart := (h .everyMinute "blade" (.succeeding (seconds 1735689600))
    ⟨[.plain 1 "blade"], [.every 0 1 1 none, .every 3600 2 1 none], .empty⟩ hadm rfl).1
  cases hstart

end RBackup2
