import RBackup2.Scheduler.Shared

/-!
# What `last_run_at` records

`last_run_at` is the "timestamp of last execution", and two places write it: `queue_job`, with the
reading that follows its send, and the loop of a load, with the last run of the row it has read, or
the present if there is none.  Both go through an UPDATE that is keyed by the job.

* `Recorded` — the value is the initial one of that schedule or the reading of one of its enqueues.
* `Justified` — so is every value a list of effects will write.
* `RecordsOnly` — the condition on a step: what it writes is the only row of its job, and a load
  only writes rows that have a last run.
* `last_run_records_enqueues` — in every run whose steps meet it, every row has a recorded value.
-/

set_option autoImplicit false

namespace RBackup2

open Transition

theorem wholeMicros_timestamptz (t : DateTime) : WholeMicros (timestamptz t) := by
  simp only [WholeMicros, timestamptz, pgEpoch, seconds]
  lia

/-- The initial value of a schedule, or the reading of an enqueue of that very schedule. -/
def Recorded (init : List Schedule) (log : List Enqueue) (id : Int) (v : Option DateTime) : Prop :=
  (∃ r ∈ init, r.id = id ∧ v = r.lastRunAt) ∨
    ∃ e ∈ log, e.scheduleId = id ∧ v = some (timestamptz e.reading)

theorem Recorded.mono {init : List Schedule} {log log' : List Enqueue} (h : log ⊆ log') {id : Int}
    {v : Option DateTime} (hv : Recorded init log id v) : Recorded init log' id v := by
  rcases hv with hv | ⟨e, he, hrest⟩
  · exact .inl hv
  · exact .inr ⟨e, h he, hrest⟩

/-- A recorded time is one the column can hold. -/
theorem Recorded.wholeMicros {init : List Schedule} (hadm : SchedulesAdmitted init)
    {log : List Enqueue} {id : Int} {l : DateTime} (h : Recorded init log id (some l)) :
    WholeMicros l := by
  rcases h with ⟨r, hr, -, hl⟩ | ⟨e, -, -, hl⟩
  · exact hadm.resolution r hr l (.inl hl.symm)
  · rw [Option.some.inj hl]
    exact wholeMicros_timestamptz e.reading

/-- What the effect writes is recorded for every row it writes to. -/
def Effect.WritesRecorded (init : List Schedule) (log : List Enqueue) : Effect → Prop
  | .updateRows jobId last _ =>
    ∀ r ∈ init, r.jobId = jobId → Recorded init log r.id (some (timestamptz last))
  | _ => True

theorem Effect.WritesRecorded.mono {init : List Schedule} {log log' : List Enqueue}
    (h : log ⊆ log') {e : Effect} (he : e.WritesRecorded init log) :
    e.WritesRecorded init log' := by
  cases e with
  | updateRows jobId last next => exact fun r hr hjob => (he r hr hjob).mono h
  | send | advance | clear | insert => trivial

/-- So is what each effect of a check writes, its sends counting as they happen. -/
def Justified (init : List Schedule) : List Enqueue → List Effect → Prop
  | _, [] => True
  | log, e :: rest => e.WritesRecorded init log ∧ Justified init (log ++ e.sent.toList) rest

theorem Justified.mono {init : List Schedule} :
    ∀ {es : List Effect} {log log' : List Enqueue}, log ⊆ log' → Justified init log es →
      Justified init log' es
  | [], _, _, _, _ => trivial
  | e :: rest, log, log', h, hes => by
    refine ⟨hes.1.mono h, hes.2.mono fun x hx => ?_⟩
    rcases List.mem_append.1 hx with hx | hx
    · exact List.mem_append_left _ (h hx)
    · exact List.mem_append_right _ hx

theorem Justified.append {init : List Schedule} :
    ∀ {es fs : List Effect} {log : List Enqueue}, Justified init log es →
      Justified init log fs → Justified init log (es ++ fs)
  | [], _, _, _, hfs => hfs
  | _ :: _, _, _, hes, hfs => ⟨hes.1, hes.2.append (hfs.mono (List.subset_append_left _ _))⟩

/-! ## The condition -/

/-- The schedule is the only one of its job in the table. -/
def SoleOfJob (rows : List Schedule) (s : Schedule) : Prop :=
  ∀ r ∈ rows, r.jobId = s.jobId → r.id = s.id

instance (rows : List Schedule) (s : Schedule) : Decidable (SoleOfJob rows s) :=
  inferInstanceAs (Decidable (∀ r ∈ rows, _ → _))

/-- The call of `queue_job` gets to its UPDATE. -/
def QueueEnv.Writes (cron : CronCrate) (env : QueueEnv) (s : Schedule) : Prop :=
  env.send = .ok () ∧ ∃ next, calculateNextRun cron s (some env.now) env.now = .ok next

/-- **The condition on a step**: the schedules it will write are the only rows of their jobs, and
    the rows a load will write have a last run. -/
def RecordsOnly (cron : CronCrate) (s : SharedScheduler) : SchedulerAction → Prop
  | .lock env => ∀ rows, s.reloading = .selected rows → ∀ row ∈ rowsBeforeFault cron env rows,
      row.nextRunAt = none → row.lastRunAt.isSome ∧ SoleOfJob s.world.rows row
  | .check t => ∀ u ∈ s.world.snapshot t.order, u.fires t.now = true →
      (t.queue u.id).Writes cron u → SoleOfJob s.world.rows u
  | _ => True

/-! ## The effects of a load and of a check -/

theorem SoleOfJob.congr {rows rows' : List Schedule} {s : Schedule}
    (h : rows.map (fun r => (r.id, r.jobId)) = rows'.map fun r => (r.id, r.jobId))
    (hs : SoleOfJob rows s) : SoleOfJob rows' s := by
  intro r hr hjob
  have hkey : (r.id, r.jobId) ∈ rows.map fun r => (r.id, r.jobId) := by
    rw [h]
    exact List.mem_map_of_mem hr
  obtain ⟨x, hx, heq⟩ := List.mem_map.1 hkey
  obtain ⟨hid, hj⟩ := Prod.mk.inj heq
  rw [← hid]
  exact hs x hx (hj.trans hjob)

/-- The value written for a schedule alone with its job is written to its own row only. -/
theorem writesRecorded_of_sole {init : List Schedule} {log : List Enqueue} {s : Schedule}
    (hs : SoleOfJob init s) {last : DateTime} (next : Option DateTime)
    (h : Recorded init log s.id (some (timestamptz last))) :
    (Effect.updateRows s.jobId last next).WritesRecorded init log := by
  intro r hr hjob
  rw [hs r hr hjob]
  exact h

theorem loadEffects_recorded {cron : CronCrate} {env : ReloadEnv} {init : List Schedule}
    (hadm : SchedulesAdmitted init) {log : List Enqueue} {row : Schedule}
    (hrow : Recorded init log row.id row.lastRunAt)
    (hok : row.nextRunAt = none → row.lastRunAt.isSome ∧ SoleOfJob init row) :
    ∀ e ∈ loadEffects cron env row, e.WritesRecorded init log := by
  intro e he
  rcases mem_loadEffects he with rfl | ⟨hnone, rfl⟩
  · trivial
  · obtain ⟨hsome, hsole⟩ := hok hnone
    obtain ⟨l, hl⟩ := Option.isSome_iff_exists.1 hsome
    apply writesRecorded_of_sole hsole
    rw [hl] at hrow ⊢
    rw [Option.getD_some, timestamptz_eq_self (hrow.wholeMicros hadm)]
    exact hrow

/-- **What a load writes is recorded**, under the condition on it. -/
theorem reloadLoop_recorded {cron : CronCrate} {env : ReloadEnv} {init : List Schedule}
    (hadm : SchedulesAdmitted init) {log : List Enqueue} {rows : List Schedule}
    (hrec : ∀ row ∈ rows, Recorded init log row.id row.lastRunAt)
    (hok : ∀ row ∈ rowsBeforeFault cron env rows, row.nextRunAt = none →
      row.lastRunAt.isSome ∧ SoleOfJob init row) :
    ∀ e ∈ (reloadLoop cron env rows).1, e.WritesRecorded init log := by
  intro e he
  obtain ⟨row, hbefore, hrow, he⟩ := mem_reloadLoop he
  exact loadEffects_recorded hadm (hrec row hrow) (hok row hbefore) e he

theorem justified_queueJob {cron : CronCrate} {env : QueueEnv} {init : List Schedule}
    {log : List Enqueue} {s : Schedule} (hok : env.Writes cron s → SoleOfJob init s) :
    Justified init log (queueJob cron env s).1 := by
  have hrec : ∀ next, calculateNextRun cron s (some env.now) env.now = .ok next →
      env.send = .ok () →
      (Effect.updateRows s.jobId env.now (some next)).WritesRecorded init
        (log ++ [⟨s.id, ⟨s.jobId, "schedule"⟩, env.now⟩]) := by
    intro next hnext hsend
    apply writesRecorded_of_sole (hok ⟨hsend, next, hnext⟩)
    exact .inr ⟨⟨s.id, ⟨s.jobId, "schedule"⟩, env.now⟩,
      List.mem_append_right _ List.mem_cons_self, rfl, rfl⟩
  rcases queueJob_cases cron env s with ⟨-, heff⟩ | ⟨-, -, heff⟩ | ⟨hsend, -, next, hnext, heff⟩ |
    ⟨⟨hsend, -⟩, next, hnext, heff⟩
  · rw [heff]
    trivial
  · rw [heff]
    exact ⟨trivial, trivial⟩
  · rw [heff]
    refine ⟨trivial, ?_⟩
    unfold updateEffect
    split
    · exact ⟨hrec next hnext hsend, trivial⟩
    · trivial
  · rw [heff]
    exact ⟨trivial, hrec next hnext hsend, trivial, trivial⟩

theorem justified_checkLoop {cron : CronCrate} {now : DateTime} {queue : Int → QueueEnv}
    {init : List Schedule} {log : List Enqueue} :
    ∀ {l : List Schedule}, (∀ u ∈ l, u.fires now = true → (queue u.id).Writes cron u →
      SoleOfJob init u) → Justified init log (checkLoop cron now queue l)
  | [], _ => trivial
  | u :: rest, hok => by
    obtain ⟨hfirst, hrest⟩ := List.forall_mem_cons.1 hok
    rw [checkLoop_cons]
    refine Justified.append ?_ (justified_checkLoop hrest)
    split
    · rename_i hf
      exact justified_queueJob (hfirst hf)
    · trivial

/-! ## The invariant -/

/-- **Only enqueues are recorded**, in the table and in everything that is still to be written. -/
structure RecordsEnqueues (init : List Schedule) (s : SharedScheduler) : Prop where
  keys : s.world.rows.map (fun r => (r.id, r.jobId)) = init.map fun r => (r.id, r.jobId)
  rows : ∀ r ∈ s.world.rows, Recorded init s.sent r.id r.lastRunAt
  selected : ∀ rows, s.reloading = .selected rows →
    ∀ row ∈ rows, Recorded init s.sent row.id row.lastRunAt
  locked : ∀ es, s.reloading = .locked es → ∀ e ∈ es, e.WritesRecorded init s.sent
  pending : Justified init s.sent s.pending

theorem RecordsEnqueues.init (w : World) : RecordsEnqueues w.rows (.init w) :=
  ⟨rfl, fun r hr => .inl ⟨r, hr, rfl, rfl⟩, fun rows h => (by cases h), fun es h => (by cases h),
    trivial⟩

/-- An effect that writes recorded values keeps the table. -/
theorem apply_recorded {init : List Schedule} {log : List Enqueue} {w : World} {e : Effect}
    (hkeys : w.rows.map (fun r => (r.id, r.jobId)) = init.map fun r => (r.id, r.jobId))
    (hrows : ∀ r ∈ w.rows, Recorded init log r.id r.lastRunAt)
    (he : e.WritesRecorded init log) :
    (w.apply e).rows.map (fun r => (r.id, r.jobId)) = init.map (fun r => (r.id, r.jobId)) ∧
      ∀ r ∈ (w.apply e).rows, Recorded init log r.id r.lastRunAt := by
  cases e with
  | updateRows jobId last next =>
    refine ⟨(updateScheduleLastRun_keys jobId last next w.rows).trans hkeys, ?_⟩
    intro r hr
    obtain ⟨x, hx, rfl⟩ := List.mem_map.1 hr
    by_cases hjob : x.jobId = jobId
    · have hkey : (x.id, x.jobId) ∈ init.map fun r => (r.id, r.jobId) := by
        rw [← hkeys]
        exact List.mem_map_of_mem hx
      obtain ⟨y, hy, heq⟩ := List.mem_map.1 hkey
      obtain ⟨hid, hj⟩ := Prod.mk.inj heq
      rw [if_pos hjob]
      show Recorded init log x.id (some (timestamptz last))
      rw [← hid]
      exact he y hy (hj.trans hjob)
    · rw [if_neg hjob]
      exact hrows x hx
  | send | advance | clear | insert => exact ⟨hkeys, hrows⟩

theorem RecordsEnqueues.step {cron : CronCrate} {deviceId : String} {init : List Schedule}
    (hadm : SchedulesAdmitted init) {s s' : SharedScheduler} {a : SchedulerAction}
    (hs : RecordsEnqueues init s) (hg : RecordsOnly cron s a)
    (h : s.step cron deviceId a = some s') : RecordsEnqueues init s' := by
  obtain ⟨-, -, rfl⟩ | ⟨env, rows, rfl, hr, rfl⟩ | ⟨e, rest, -, hr, rfl⟩ | ⟨-, -, rfl⟩ |
    ⟨t, rfl, -, -, -, rfl⟩ | ⟨e, rest, -, hp, -, rfl⟩ := SharedScheduler.step_cases h
  · -- the SELECT returns rows of the table
    refine ⟨hs.keys, hs.rows, ?_, fun es h => (by cases h), hs.pending⟩
    intro rows hrows row hrow
    cases hrows
    exact hs.rows row (List.mem_filter.1 hrow).1
  · refine ⟨hs.keys, hs.rows, fun rows h => (by cases h), ?_, hs.pending⟩
    intro es hes e he
    cases hes
    rcases List.mem_cons.1 he with rfl | he
    · trivial
    · refine reloadLoop_recorded hadm (hs.selected rows hr) (fun row hrow hnone => ?_) e he
      obtain ⟨hsome, hsole⟩ := hg rows hr row hrow hnone
      exact ⟨hsome, hsole.congr hs.keys⟩
  · have heffects := hs.locked _ hr
    obtain ⟨hkeys, hrows⟩ := apply_recorded hs.keys hs.rows (heffects e List.mem_cons_self)
    refine ⟨hkeys, hrows, fun rows h => (by cases h), ?_, hs.pending⟩
    intro es hes x hx
    cases hes
    exact heffects x (List.mem_cons_of_mem _ hx)
  · exact ⟨hs.keys, hs.rows, fun rows h => (by cases h), fun es h => (by cases h), hs.pending⟩
  · refine ⟨hs.keys, hs.rows, hs.selected, hs.locked, ?_⟩
    exact justified_checkLoop fun u hu hf hw => (hg u hu hf hw).congr hs.keys
  · obtain ⟨hwrite, hrest⟩ : e.WritesRecorded init s.sent ∧
        Justified init (s.sent ++ e.sent.toList) rest := by
      have hpending := hs.pending
      rw [hp] at hpending
      exact hpending
    obtain ⟨hkeys, hrows⟩ := apply_recorded hs.keys hs.rows hwrite
    have hlog : SharedScheduler.sent ⟨s.world.apply e, s.reloading, rest, s.past ++ [e]⟩ =
        s.sent ++ e.sent.toList := by
      unfold SharedScheduler.sent
      rw [List.filterMap_append]
      cases hsent : e.sent <;> simp [hsent]
    have hgrow : s.sent ⊆ s.sent ++ e.sent.toList := List.subset_append_left _ _
    refine ⟨hkeys, fun r hr => ?_, fun rows hrows row hrow => ?_, fun es hes x hx => ?_, ?_⟩
    · rw [hlog]
      exact (hrows r hr).mono hgrow
    · rw [hlog]
      exact (hs.selected rows hrows row hrow).mono hgrow
    · rw [hlog]
      exact (hs.locked es hes x hx).mono hgrow
    · rw [hlog]
      exact hrest

/-- **What a last run records.**  Over every sequence and every interleaving of loads and checks,
    whatever the database answers: if each step writes only schedules that are the only row of
    their job, and a load writes only rows that have a last run, then the `last_run_at` of every
    row is its initial value or the reading of an enqueue of that very schedule. -/
theorem last_run_records_enqueues (cron : CronCrate) (deviceId : String) (w : World)
    (hadm : SchedulesAdmitted w.rows) (as : List SchedulerAction) (s : SharedScheduler)
    (h : exec (SharedScheduler.step cron deviceId) (.init w) as = some s)
    (hg : Along (SharedScheduler.step cron deviceId) (RecordsOnly cron) (.init w) as) :
    ∀ r ∈ s.world.rows, ∃ r₀ ∈ w.rows, r₀.id = r.id ∧
      (r.lastRunAt = r₀.lastRunAt ∨
        ∃ e ∈ s.sent, e.scheduleId = r.id ∧ r.lastRunAt = some (timestamptz e.reading)) := by
  have hs : RecordsEnqueues w.rows s :=
    exec_along (fun _ _ _ hs hg hstep => hs.step hadm hg hstep) (.init w) hg h
  intro r hr
  rcases hs.rows r hr with ⟨r₀, hr₀, hid, hlast⟩ | henq
  · exact ⟨r₀, hr₀, hid, .inl hlast⟩
  · have hkey : (r.id, r.jobId) ∈ w.rows.map fun r => (r.id, r.jobId) := by
      rw [← hs.keys]
      exact List.mem_map_of_mem hr
    obtain ⟨r₀, hr₀, heq⟩ := List.mem_map.1 hkey
    exact ⟨r₀, hr₀, (Prod.mk.inj heq).1, .inr henq⟩

/-- An hourly schedule is loaded, and enqueued by a check: its row has the reading. -/
theorem last_run_records_enqueues_hourly :
    let w : World :=
      ⟨[.plain 1 "blade"], [.every 3600 1 1 (some (seconds 1735689600))], .empty⟩
    let as := SchedulerAction.load (.succeeding (seconds 1735689540)) 2 ++
      SchedulerAction.wholeCheck
        ⟨seconds 1735689600, [1], fun _ => .succeeding (seconds 1735689601)⟩ 3
    ∃ s, exec (SharedScheduler.step .everyMinute "blade") (.init w) as = some s ∧
      ∀ r ∈ s.world.rows, ∃ r₀ ∈ w.rows, r₀.id = r.id ∧
        (r.lastRunAt = r₀.lastRunAt ∨
          ∃ e ∈ s.sent, e.scheduleId = r.id ∧ r.lastRunAt = some (timestamptz e.reading)) := by
  intro w as
  have hadm : SchedulesAdmitted w.rows := .ofRows (by decide)
  have hg : Along (SharedScheduler.step .everyMinute "blade") (RecordsOnly .everyMinute)
      (.init w) as := by
    refine ⟨trivial, ?_⟩
    rintro _ ⟨⟩
    refine ⟨?_, ?_⟩
    · -- the row has a next time, and the load writes nothing
      rintro rows ⟨⟩ row hrow hnone
      rw [List.mem_singleton.1 hrow] at hnone
      cases hnone
    rintro _ ⟨⟩
    refine along_append.2 ⟨along_of_forall (by simp [RecordsOnly]) _, ?_⟩
    rintro _ ⟨⟩
    refine ⟨?_, fun s' _ => along_of_forall (by simp [RecordsOnly]) s'⟩
    intro u hu _ _
    rw [List.mem_singleton.1 hu]
    decide
  exact ⟨_, rfl, last_run_records_enqueues .everyMinute "blade" w hadm as _ rfl hg⟩

/-- A schedule that has never run is loaded, and nothing is enqueued: its last run is the reading
    of the load. -/
theorem load_records_a_run :
    let w : World := ⟨[.plain 1 "blade"], [.every 3600 1 1 none], .empty⟩
    let as := SchedulerAction.load (.succeeding (seconds 1735689600)) 3
    SchedulesAdmitted w.rows ∧ (∀ a ∈ as, a.DbSucceeds) ∧
    ∃ s, exec (SharedScheduler.step .everyMinute "blade") (.init w) as = some s ∧
      ¬ ∀ r ∈ s.world.rows, ∃ r₀ ∈ w.rows, r₀.id = r.id ∧
        (r.lastRunAt = r₀.lastRunAt ∨
          ∃ e ∈ s.sent, e.scheduleId = r.id ∧ r.lastRunAt = some (timestamptz e.reading)) := by
  intro w as
  refine ⟨.ofRows (by decide), ?_, _, rfl, ?_⟩
  · simp [as, SchedulerAction.load, SchedulerAction.DbSucceeds, ReloadEnv.succeeding]
  · intro h
    obtain ⟨r₀, hr₀, -, hlast | ⟨e, he, -⟩⟩ := h _ List.mem_cons_self
    · rw [List.mem_singleton.1 hr₀] at hlast
      cases hlast
    · cases he

end RBackup2
