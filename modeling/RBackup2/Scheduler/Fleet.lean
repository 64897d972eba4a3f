import RBackup2.Eligibility
import RBackup2.Lib.Separation

/-!
# The schedulers of a fleet

The clients of many devices share one database.  Each selects the schedules of its own device and
writes to the schedules of a job, and a job is of one device.

* `Tables.ofDevice` — the part of the tables that is a device's.
* `FleetClient.step` — a step of one client's `reload_schedules` or `check_schedules` on the
  tables all share.
* `fleet_separated` — a client reads and writes the part of its own device only.
* `fleet_isolated` — whatever the clients of other devices do in between, a client's memory, what
  it enqueues and the rows of its device are those of a run of it alone.
-/

set_option autoImplicit false

namespace RBackup2

open Transition

/-! ## One client among others -/

/-- The tables the schedulers share. -/
structure Tables where
  jobs : List BackupJob
  rows : List Schedule

/-- The scheduler of one client, without the tables. -/
structure FleetClient where
  deviceId : String
  schedules : ScheduleMap
  reloading : ReloadPhase
  pending : List Effect
  past : List Effect

/-- A client that has just been started. -/
def FleetClient.start (deviceId : String) : FleetClient := ⟨deviceId, .empty, .idle, [], []⟩

def FleetClient.on (c : FleetClient) (db : Tables) : SharedScheduler :=
  ⟨⟨db.jobs, db.rows, c.schedules⟩, c.reloading, c.pending, c.past⟩

def SharedScheduler.tables (s : SharedScheduler) : Tables := ⟨s.world.jobs, s.world.rows⟩

def SharedScheduler.client (s : SharedScheduler) (deviceId : String) : FleetClient :=
  ⟨deviceId, s.world.schedules, s.reloading, s.pending, s.past⟩

/-- A step of a client on the tables. -/
def FleetClient.step (cron : CronCrate) (db : Tables) (c : FleetClient) (a : SchedulerAction) :
    Option (Tables × FleetClient) :=
  ((c.on db).step cron c.deviceId a).map fun s => (s.tables, s.client c.deviceId)

/-- The clients of a fleet and the tables they share. -/
abbrev Fleet := Interleaving Tables FleetClient

/-- Client `i` takes a step. -/
def Fleet.step (cron : CronCrate) (s : Fleet) (a : Nat × SchedulerAction) : Option Fleet :=
  Interleaving.step (FleetClient.step cron) s a

/-! ## The part of a device -/

/-- The job is of the device. -/
def OfDevice (jobs : List BackupJob) (deviceId : String) (jobId : Uuid) : Prop :=
  ∃ job ∈ jobs, job.id = jobId ∧ job.deviceId = deviceId

/-- The jobs of a device and their schedules. -/
def Tables.ofDevice (deviceId : String) (db : Tables) : Tables where
  jobs := db.jobs.filter fun j => j.deviceId == deviceId
  rows := db.rows.filter fun s => db.jobs.any fun j => j.id == s.jobId && j.deviceId == deviceId

/-- The SELECT of a client sees its own part. -/
theorem getSchedulesForDevice_ofDevice (db : Tables) (deviceId : String) :
    getSchedulesForDevice (db.ofDevice deviceId).jobs (db.ofDevice deviceId).rows deviceId =
      getSchedulesForDevice db.jobs db.rows deviceId := by
  unfold getSchedulesForDevice Tables.ofDevice
  rw [List.filter_filter]
  refine List.filter_congr fun s _ => ?_
  rw [List.any_filter, Bool.eq_iff_iff]
  simp only [Bool.and_eq_true, List.any_eq_true, beq_iff_eq]
  constructor
  · rintro ⟨⟨hen, j, hj, hdev, ⟨hid, -⟩, hjen⟩, -⟩
    exact ⟨hen, j, hj, ⟨hid, hdev⟩, hjen⟩
  · rintro ⟨hen, j, hj, ⟨hid, hdev⟩, hjen⟩
    exact ⟨⟨hen, j, hj, hdev, ⟨hid, hdev⟩, hjen⟩, j, hj, hid, hdev⟩

/-- An UPDATE moves no schedule to another device. -/
theorem ofDevice_update (db : Tables) (deviceId : String) (jobId : Uuid) (last : DateTime)
    (next : Option DateTime) :
    Tables.ofDevice deviceId ⟨db.jobs, updateScheduleLastRun jobId last next db.rows⟩ =
      ⟨(db.ofDevice deviceId).jobs,
        updateScheduleLastRun jobId last next (db.ofDevice deviceId).rows⟩ := by
  unfold Tables.ofDevice updateScheduleLastRun
  simp only [List.filter_map, Tables.mk.injEq, true_and]
  congr 2
  funext s
  simp only [Function.comp_apply]
  split <;> rfl

/-- An UPDATE for a job of another device does not concern the device. -/
theorem ofDevice_update_of_ne {db : Tables} (hids : (db.jobs.map (·.id)).Nodup)
    {deviceId other : String} {jobId : Uuid} (hjob : OfDevice db.jobs other jobId)
    (hne : deviceId ≠ other) (last : DateTime) (next : Option DateTime) :
    Tables.ofDevice deviceId ⟨db.jobs, updateScheduleLastRun jobId last next db.rows⟩ =
      db.ofDevice deviceId := by
  rw [ofDevice_update]
  have hrows : ∀ s ∈ (db.ofDevice deviceId).rows, s.jobId ≠ jobId := by
    rintro s hs rfl
    obtain ⟨-, hany⟩ := List.mem_filter.1 hs
    obtain ⟨j, hj, hmatch⟩ := List.any_eq_true.1 hany
    obtain ⟨hid, hdev⟩ : j.id = s.jobId ∧ j.deviceId = deviceId := by simpa using hmatch
    obtain ⟨k, hk, hkid, hkdev⟩ := hjob
    rw [List.inj_on_of_nodup_map hids hj hk (hid.trans hkid.symm), hkdev] at hdev
    exact hne hdev.symm
  have hsame : updateScheduleLastRun jobId last next (db.ofDevice deviceId).rows =
      (db.ofDevice deviceId).rows := by
    unfold updateScheduleLastRun
    refine (List.map_congr_left fun s hs => ?_).trans (List.map_id _)
    rw [if_neg (hrows s hs)]
    rfl
  rw [hsame]

/-! ## What a client writes -/

/-- The effect writes to the rows of jobs with `V` only. -/
def Effect.Writes (V : Uuid → Prop) : Effect → Prop
  | .updateRows jobId _ _ => V jobId
  | _ => True

section Writes

variable {V : Uuid → Prop}

theorem writes_reloadLoop {cron : CronCrate} {env : ReloadEnv} {rows : List Schedule}
    (h : ∀ r ∈ rows, V r.jobId) : ∀ e ∈ (reloadLoop cron env rows).1, e.Writes V := by
  intro e he
  obtain ⟨row, -, hrow, he⟩ := mem_reloadLoop he
  rcases mem_loadEffects he with rfl | ⟨-, rfl⟩
  · trivial
  · exact h row hrow

theorem writes_checkSchedules {cron : CronCrate} {w : World} {t : Tick}
    (hp : t.order.Perm w.schedules.ids) (h : ∀ id u, w.schedules.get id = some u → V u.jobId) :
    ∀ e ∈ checkSchedules cron w t, e.Writes V := by
  intro e he
  obtain ⟨u, hu, -, he⟩ := mem_checkLoop.1 he
  rcases queueJob_effects he with rfl | ⟨next, -, rfl | rfl⟩
  · trivial
  · exact h u.id u ((World.mem_snapshot hp).1 hu)
  · trivial

/-- The effects a scheduler has still to carry out write to the rows of jobs with `V` only. -/
structure SharedScheduler.Writes (V : Uuid → Prop) (s : SharedScheduler) : Prop where
  locked : ∀ es, s.reloading = .locked es → ∀ e ∈ es, e.Writes V
  pending : ∀ e ∈ s.pending, e.Writes V

theorem SharedScheduler.Writes.step {cron : CronCrate} {deviceId : String}
    {s s' : SharedScheduler} {a : SchedulerAction} (hs : s.Writes V) (hknows : s.Knows V)
    (h : s.step cron deviceId a = some s') : s'.Writes V := by
  obtain ⟨-, -, rfl⟩ | ⟨env, rows, -, hr, rfl⟩ | ⟨e, rest, -, hr, rfl⟩ | ⟨-, -, rfl⟩ |
    ⟨t, -, -, -, hp, rfl⟩ | ⟨e, rest, -, hp, -, rfl⟩ := SharedScheduler.step_cases h
  · exact ⟨fun es h => (by cases h), hs.pending⟩
  · refine ⟨fun es hes e he => ?_, hs.pending⟩
    cases hes
    rcases List.mem_cons.1 he with rfl | he
    · trivial
    · exact writes_reloadLoop (hknows.selected rows hr) e he
  · refine ⟨fun es hes => ?_, hs.pending⟩
    cases hes
    exact (List.forall_mem_cons.1 (hs.locked _ hr)).2
  · exact ⟨fun es h => (by cases h), hs.pending⟩
  · exact ⟨hs.locked, writes_checkSchedules hp hknows.memory⟩
  · have hpending := hs.pending
    rw [hp] at hpending
    exact ⟨hs.locked, (List.forall_mem_cons.1 hpending).2⟩

end Writes

/-- A client of a fleet: job ids are unique, and it deals with jobs of its own device. -/
structure FleetClient.Inv (db : Tables) (c : FleetClient) : Prop where
  ids : (db.jobs.map (·.id)).Nodup
  knows : (c.on db).Knows (OfDevice db.jobs c.deviceId)
  writes : (c.on db).Writes (OfDevice db.jobs c.deviceId)

theorem FleetClient.Inv.start {db : Tables} (hids : (db.jobs.map (·.id)).Nodup)
    (deviceId : String) : (FleetClient.start deviceId).Inv db := by
  refine ⟨hids, ⟨fun _ h => (by cases h), fun _ h => (by cases h), fun id u h => (by cases h),
    fun e he => absurd he List.not_mem_nil⟩, ⟨fun _ h => (by cases h),
    fun e he => absurd he List.not_mem_nil⟩⟩

theorem FleetClient.step_eq {cron : CronCrate} {db db' : Tables} {c c' : FleetClient}
    {a : SchedulerAction} (h : c.step cron db a = some (db', c')) :
    ∃ s, (c.on db).step cron c.deviceId a = some s ∧ db' = s.tables ∧
      c' = s.client c.deviceId ∧ s.world.jobs = db.jobs ∧ c'.on db' = s := by
  obtain ⟨s, hs, heq⟩ := Option.map_eq_some_iff.1 h
  cases heq
  exact ⟨s, hs, rfl, rfl, SharedScheduler.step_jobs hs, rfl⟩

/-- A step keeps the client's own invariant. -/
theorem FleetClient.Inv.step {cron : CronCrate} {db db' : Tables} {c c' : FleetClient}
    {a : SchedulerAction} (hc : c.Inv db) (h : c.step cron db a = some (db', c')) : c'.Inv db' := by
  obtain ⟨s, hs, rfl, rfl, hjobs, hon⟩ := FleetClient.step_eq h
  have hknows : s.Knows (OfDevice db.jobs c.deviceId) := by
    refine hc.knows.step (fun _ r hr => ?_) hs
    obtain ⟨-, hfilter⟩ := List.mem_filter.1 hr
    rw [Bool.and_eq_true, List.any_eq_true] at hfilter
    obtain ⟨-, job, hjob, hmatch⟩ := hfilter
    obtain ⟨⟨hid, hdev⟩, -⟩ : (job.id = r.jobId ∧ job.deviceId = c.deviceId) ∧
        job.enabled = true := by simpa using hmatch
    exact ⟨job, hjob, hid, hdev⟩
  refine ⟨?_, ?_, ?_⟩
  · rw [SharedScheduler.tables, hjobs]
    exact hc.ids
  · rw [hon, SharedScheduler.tables, hjobs]
    exact hknows
  · rw [hon, SharedScheduler.tables, hjobs]
    exact hc.writes.step hc.knows hs

/-- What an effect of a client does to the part of a device. -/
theorem ofDevice_apply {w : World} (hids : (w.jobs.map (·.id)).Nodup) {deviceId : String}
    {e : Effect} (he : e.Writes (OfDevice w.jobs deviceId)) :
    Tables.ofDevice deviceId ⟨(w.apply e).jobs, (w.apply e).rows⟩ =
      ⟨((World.mk (Tables.ofDevice deviceId ⟨w.jobs, w.rows⟩).jobs
          (Tables.ofDevice deviceId ⟨w.jobs, w.rows⟩).rows w.schedules).apply e).jobs,
        ((World.mk (Tables.ofDevice deviceId ⟨w.jobs, w.rows⟩).jobs
          (Tables.ofDevice deviceId ⟨w.jobs, w.rows⟩).rows w.schedules).apply e).rows⟩ ∧
    ∀ other, other ≠ deviceId → Tables.ofDevice other ⟨(w.apply e).jobs, (w.apply e).rows⟩ =
      Tables.ofDevice other ⟨w.jobs, w.rows⟩ := by
  cases e with
  | updateRows jobId last next =>
    have hids' : ((Tables.mk w.jobs w.rows).jobs.map (·.id)).Nodup := hids
    exact ⟨ofDevice_update ⟨w.jobs, w.rows⟩ deviceId jobId last next,
      fun other hne => ofDevice_update_of_ne hids' he hne last next⟩
  | send | advance | clear | insert => exact ⟨rfl, fun _ _ => rfl⟩

/-- **A client reads and writes the part of its own device only.** -/
theorem fleet_separated (cron : CronCrate) :
    Isolated (FleetClient.step cron) FleetClient.deviceId Tables.ofDevice
      (FleetClient.step cron) (fun db c => c.Inv db) where
  key_eq h := by
    obtain ⟨s, -, -, rfl, -⟩ := FleetClient.step_eq h
    rfl
  own := by
    intro db c a db' c' hc h
    obtain ⟨s, hs, rfl, rfl, -, -⟩ := FleetClient.step_eq h
    -- the step alone, on the part of the device
    have halone : (c.on (db.ofDevice c.deviceId)).step cron c.deviceId a =
        some ((s.client c.deviceId).on (s.tables.ofDevice c.deviceId)) := by
      obtain ⟨rfl, hr, rfl⟩ | ⟨env, rows, rfl, hr, rfl⟩ | ⟨e, rest, rfl, hr, rfl⟩ |
        ⟨rfl, hr, rfl⟩ | ⟨t, rfl, hpend, hfree, hp, rfl⟩ | ⟨e, rest, rfl, hpend, hmap, rfl⟩ :=
        SharedScheduler.step_cases hs
      · have hsel := getSchedulesForDevice_ofDevice db c.deviceId
        have hr' : c.reloading = .idle := hr
        simp [SharedScheduler.step, FleetClient.on, SharedScheduler.client,
          SharedScheduler.tables, hr', hsel]
      · have hr' : c.reloading = .selected rows := hr
        simp [SharedScheduler.step, FleetClient.on, SharedScheduler.client,
          SharedScheduler.tables, hr']
      · have hr' : c.reloading = .locked (e :: rest) := hr
        have hwrites := hc.writes.locked _ hr e List.mem_cons_self
        have happly := (ofDevice_apply (w := (c.on db).world) hc.ids hwrites).1
        simp only [SharedScheduler.step, FleetClient.on, hr', SharedScheduler.client,
          SharedScheduler.tables]
        simp only [FleetClient.on] at happly
        rw [happly]
        cases e <;> rfl
      · have hr' : c.reloading = .locked [] := hr
        simp [SharedScheduler.step, FleetClient.on, SharedScheduler.client,
          SharedScheduler.tables, hr']
      · have hpend' : c.pending = [] := hpend
        have hfree' : c.reloading.free = true := hfree
        have hp' : t.order.Perm c.schedules.ids := hp
        simp [SharedScheduler.step, FleetClient.on, SharedScheduler.client,
          SharedScheduler.tables, hpend', hfree', hp', checkSchedules, World.snapshot]
      · have hpend' : c.pending = e :: rest := hpend
        have hwrites := hc.writes.pending e (by rw [hpend]; exact List.mem_cons_self)
        have happly := (ofDevice_apply (w := (c.on db).world) hc.ids hwrites).1
        have hgo : ¬ (e.onMap = true ∧ c.reloading.free = false) := by
          rintro ⟨hon, hlocked⟩
          have hfree : c.reloading.free = true := hmap hon
          rw [hlocked] at hfree
          cases hfree
        simp only [SharedScheduler.step, FleetClient.on, hpend', if_neg hgo,
          SharedScheduler.client, SharedScheduler.tables]
        simp only [FleetClient.on] at happly
        rw [happly]
        cases e <;> rfl
    rw [FleetClient.step, halone]
    rfl
  other := by
    intro db c a db' c' hc h other hne
    obtain ⟨s, hs, rfl, rfl, -, -⟩ := FleetClient.step_eq h
    obtain ⟨-, -, rfl⟩ | ⟨env, rows, -, -, rfl⟩ | ⟨e, rest, -, hr, rfl⟩ | ⟨-, -, rfl⟩ |
      ⟨t, -, -, -, -, rfl⟩ | ⟨e, rest, -, hpend, -, rfl⟩ := SharedScheduler.step_cases hs
    case inr.inr.inl =>
      have hwrites := hc.writes.locked _ hr e List.mem_cons_self
      exact (ofDevice_apply (w := (c.on db).world) hc.ids hwrites).2 other hne
    case inr.inr.inr.inr.inr =>
      have hwrites := hc.writes.pending e (by rw [hpend]; exact List.mem_cons_self)
      exact (ofDevice_apply (w := (c.on db).world) hc.ids hwrites).2 other hne
    all_goals rfl
  inv_own hc h := hc.step h
  inv_other := by
    intro db c a db' c' d hc hd _ h
    obtain ⟨s, -, rfl, -, hjobs, -⟩ := FleetClient.step_eq h
    have hsame : s.tables.jobs = db.jobs := hjobs
    refine ⟨hsame ▸ hd.ids, ?_, ?_⟩
    · rw [hsame]
      exact ⟨hd.knows.selected, hd.knows.locked, hd.knows.memory, hd.knows.pending⟩
    · rw [hsame]
      exact ⟨hd.writes.locked, hd.writes.pending⟩

/-- The step alone is the step of the scheduler. -/
theorem exec_alone {cron : CronCrate} {deviceId : String} :
    ∀ {as : List SchedulerAction} {db db' : Tables} {c c' : FleetClient}, c.deviceId = deviceId →
      exec (fun (p : Tables × FleetClient) a => FleetClient.step cron p.1 p.2 a) (db, c) as =
        some (db', c') →
      exec (SharedScheduler.step cron deviceId) (c.on db) as = some (c'.on db')
  | [], _, _, _, _, _, h => by
    cases h
    rfl
  | a :: as, db, db', c, c', hd, h => by
    obtain ⟨⟨db₁, c₁⟩, hstep, hrest⟩ := exec_cons.1 h
    obtain ⟨s, hs, -, hc, -, hon⟩ := FleetClient.step_eq hstep
    subst hd
    refine exec_cons.2 ⟨s, hs, ?_⟩
    rw [← hon]
    exact exec_alone (by rw [hc]; rfl) hrest

/-- **The other clients do not show.**  In any run of the clients of a fleet, in any order, each
    client takes the run it takes as the only scheduler on the part of its own device: the same
    memory, the same executions enqueued, the same rows of its device. -/
theorem fleet_isolated (cron : CronCrate) {db : Tables} (hids : (db.jobs.map (·.id)).Nodup)
    {devices : List String} (hdevices : devices.Nodup) {as : List (Nat × SchedulerAction)}
    {s : Fleet} (h : exec (Fleet.step cron) ⟨db, devices.map .start⟩ as = some s) {i : Nat}
    {deviceId : String} (hi : devices[i]? = some deviceId) :
    ∃ c, s.parts[i]? = some c ∧
      exec (SharedScheduler.step cron deviceId)
        ((FleetClient.start deviceId).on (db.ofDevice deviceId)) (eventsOf i as) =
        some (c.on (s.shared.ofDevice deviceId)) := by
  have hkeys : (devices.map FleetClient.start).map FleetClient.deviceId = devices := by
    rw [List.map_map]
    exact List.map_id devices
  have hinv : ∀ c ∈ devices.map FleetClient.start, c.Inv db := by
    intro c hc
    obtain ⟨d, -, rfl⟩ := List.mem_map.1 hc
    exact .start hids d
  have hstart : (devices.map FleetClient.start)[i]? = some (.start deviceId) := by
    rw [List.getElem?_map, hi, Option.map_some]
  obtain ⟨c, hc, halone⟩ :=
    (fleet_separated cron).exec_solo (hkeys.symm ▸ hdevices) hinv h hstart
  exact ⟨c, hc, exec_alone rfl halone⟩

/-- Two clients load and check, one in the middle of the other. -/
theorem fleet_isolated_two :
    let db : Tables := ⟨[.plain 1 "blade", .plain 2 "tower"],
      [.every 3600 1 1 (some (seconds 1735689600)), .every 3600 2 2 (some (seconds 1735689600))]⟩
    let check : SchedulerAction :=
      .check ⟨seconds 1735689600, [2], fun _ => .succeeding (seconds 1735689601)⟩
    let load := SchedulerAction.load (.succeeding (seconds 1735689540)) 2
    let as := (0, .select) :: load.map (1, ·) ++
      [(1, check), (0, .lock (.succeeding (seconds 1735689540))), (1, .effect), (1, .effect)]
    ∃ s, exec (Fleet.step .everyMinute) ⟨db, ["blade", "tower"].map .start⟩ as = some s ∧
      ∃ c, s.parts[1]? = some c ∧
        exec (SharedScheduler.step .everyMinute "tower")
          ((FleetClient.start "tower").on (db.ofDevice "tower")) (eventsOf 1 as) =
          some (c.on (s.shared.ofDevice "tower")) := by
  intro db check load as
  have hdevices : ["blade", "tower"].Nodup := by decide
  exact ⟨_, rfl, fleet_isolated .everyMinute (by decide) hdevices rfl rfl⟩

end RBackup2
