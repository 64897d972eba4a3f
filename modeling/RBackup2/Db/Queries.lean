import RBackup2.Db.Models
import RBackup2.Error

/-!
# Queries

`db/queries.rs` over the tables as lists of rows.  Every statement that writes takes the outcome
the database gives it: it succeeds, it fails without effect, or it takes effect and the answer is
lost.

* `RunsTable` — the table `runs`: its primary key is unique and its sequence is ahead of every id.
* `createRun`, `updateRun` — the INSERT and the thirteen-argument UPDATE of a run; `update_find`
  says which row an UPDATE changes, `update_find_other` that it changes no other.
* `updateScheduleLastRun` — the UPDATE of `schedules`, which is keyed by `job_id`.
-/

set_option autoImplicit false

namespace RBackup2

/-- What a database call that writes comes to. -/
inductive DbOutcome where
  /-- The statement took effect and the client was told so. -/
  | done
  /-- The statement had no effect. -/
  | failed (err : String)
  /-- The statement took effect, and the client was told that it failed. -/
  | lost (err : String)
  deriving DecidableEq, Repr

def DbOutcome.applied : DbOutcome → Bool
  | .done => true
  | .failed _ => false
  | .lost _ => true

/-- What the client is told: `.await?` on the call. -/
def DbOutcome.result {α : Type} (o : DbOutcome) (a : α) : Except AppError α :=
  match o with
  | .done => .ok a
  | .failed err => .error (.ofSqlx err)
  | .lost err => .error (.ofSqlx err)

/-- Whatever else the database answers is an error to the client. -/
theorem DbOutcome.result_of_ne_done {o : DbOutcome} (h : o ≠ .done) :
    ∃ e, ∀ {α : Type} (a : α), o.result a = .error e := by
  cases o with
  | done => exact absurd rfl h
  | failed err => exact ⟨.ofSqlx err, fun _ => rfl⟩
  | lost err => exact ⟨.ofSqlx err, fun _ => rfl⟩

/-! ## backup_jobs and schedules -/

/-- `SELECT * FROM backup_jobs WHERE id = $1`. -/
def getJobById (jobs : List BackupJob) (jobId : Uuid) : Option BackupJob :=
  jobs.find? (fun j => j.id == jobId)

theorem getJobById_id {jobs : List BackupJob} {jobId : Uuid} {job : BackupJob}
    (h : getJobById jobs jobId = some job) : job.id = jobId := by
  simpa using List.find?_some h

/-- An id belongs to one row. -/
theorem getJobById_of_mem {jobs : List BackupJob} (hids : (jobs.map (·.id)).Nodup)
    {job : BackupJob} (h : job ∈ jobs) : getJobById jobs job.id = some job := by
  unfold getJobById
  cases hfind : jobs.find? (fun j => j.id == job.id) with
  | none => exact absurd (List.find?_eq_none.1 hfind job h) (by simp)
  | some found =>
    have hid : found.id = job.id := by simpa using List.find?_some hfind
    rw [List.inj_on_of_nodup_map hids (List.mem_of_find?_eq_some hfind) h hid]

/-- `schedules s JOIN backup_jobs j ON s.job_id = j.id` restricted to the enabled schedules of
    the enabled jobs of a device; `j.id` is a primary key, so a schedule joins at most once. -/
def getSchedulesForDevice (jobs : List BackupJob) (rows : List Schedule) (deviceId : String) :
    List Schedule :=
  rows.filter fun s =>
    s.enabled && jobs.any fun j => j.id == s.jobId && j.deviceId == deviceId && j.enabled

/-- What the schema lets the table `schedules` hold: the primary key, `check_schedule_type`,
    `check_cron_expression`, and the resolution of its timestamps. -/
structure SchedulesAdmitted (rows : List Schedule) : Prop where
  ids_nodup : (rows.map Schedule.id).Nodup
  schedule_type : ∀ s ∈ rows, s.scheduleType = "cron" ∨ s.scheduleType = "interval"
  cron_expression : ∀ s ∈ rows, (s.scheduleType = "cron" ∧ s.cronExpression.isSome) ∨
    (s.scheduleType = "interval" ∧ s.intervalSeconds.isSome)
  resolution : ∀ s ∈ rows, ∀ t, s.lastRunAt = some t ∨ s.nextRunAt = some t → WholeMicros t

/-- The constraints as a check, row by row. -/
theorem SchedulesAdmitted.ofRows {rows : List Schedule}
    (h : (rows.map Schedule.id).Nodup ∧ ∀ s ∈ rows,
      ((s.scheduleType = "cron" ∧ s.cronExpression.isSome) ∨
        (s.scheduleType = "interval" ∧ s.intervalSeconds.isSome)) ∧
      ∀ t ∈ s.lastRunAt.toList ++ s.nextRunAt.toList, WholeMicros t) :
    SchedulesAdmitted rows := by
  obtain ⟨hids, hrows⟩ := h
  refine ⟨hids, fun s hs => ?_, fun s hs => (hrows s hs).1, fun s hs t ht => ?_⟩
  · rcases (hrows s hs).1 with hcron | hinterval
    · exact .inl hcron.1
    · exact .inr hinterval.1
  · apply (hrows s hs).2 t
    rw [List.mem_append, Option.mem_toList, Option.mem_toList]
    exact ht

theorem getSchedulesForDevice_ids (jobs : List BackupJob) {rows : List Schedule}
    (h : SchedulesAdmitted rows) (deviceId : String) :
    ((getSchedulesForDevice jobs rows deviceId).map Schedule.id).Nodup :=
  h.ids_nodup.sublist (List.filter_sublist.map _)

/-- `UPDATE schedules SET last_run_at = $2, next_run_at = $3 WHERE job_id = $1`. -/
def updateScheduleLastRun (jobId : Uuid) (lastRunAt : DateTime) (nextRunAt : Option DateTime)
    (rows : List Schedule) : List Schedule :=
  rows.map fun s =>
    if s.jobId = jobId then
      { s with lastRunAt := some (timestamptz lastRunAt), nextRunAt := nextRunAt.map timestamptz }
    else s

/-- The UPDATE changes neither the id nor the job of a row. -/
theorem updateScheduleLastRun_keys (jobId : Uuid) (last : DateTime) (next : Option DateTime)
    (rows : List Schedule) :
    (updateScheduleLastRun jobId last next rows).map (fun s => (s.id, s.jobId)) =
      rows.map fun s => (s.id, s.jobId) := by
  unfold updateScheduleLastRun
  rw [List.map_map]
  refine List.map_congr_left fun s _ => ?_
  simp only [Function.comp_apply]
  split <;> rfl

/-- The UPDATE changes no column the SELECT looks at. -/
theorem getSchedulesForDevice_update (jobs : List BackupJob) (rows : List Schedule)
    (deviceId : String) (jobId : Uuid) (last : DateTime) (next : Option DateTime) :
    getSchedulesForDevice jobs (updateScheduleLastRun jobId last next rows) deviceId =
      updateScheduleLastRun jobId last next (getSchedulesForDevice jobs rows deviceId) := by
  unfold getSchedulesForDevice updateScheduleLastRun
  rw [List.filter_map]
  congr 2
  funext s
  simp only [Function.comp_apply]
  split <;> rfl

/-- The UPDATE leaves the schedules of other jobs alone. -/
theorem mem_updateScheduleLastRun_of_ne {jobId : Uuid} {last : DateTime} {next : Option DateTime}
    {rows : List Schedule} {s : Schedule} (hs : s ∈ rows) (hne : s.jobId ≠ jobId) :
    s ∈ updateScheduleLastRun jobId last next rows :=
  List.mem_map.2 ⟨s, hs, if_neg hne⟩

/-! ## runs -/

/-- The table `runs` and its id sequence. -/
structure RunsTable where
  rows : List Run
  nextId : Int
  ids_lt : ∀ r ∈ rows, r.id < nextId
  ids_nodup : (rows.map (·.id)).Nodup

def RunsTable.empty : RunsTable := ⟨[], 1, by simp, by simp⟩

/-- The row with an id. -/
def RunsTable.find (t : RunsTable) (id : Int) : Option Run := t.rows.find? (fun r => r.id == id)

theorem RunsTable.find_id {t : RunsTable} {id : Int} {r : Run} (h : t.find id = some r) :
    r.id = id := by
  simpa using List.find?_some h

theorem RunsTable.find_of_mem {t : RunsTable} {r : Run} (h : r ∈ t.rows) :
    t.find r.id = some r := by
  obtain ⟨x, hx⟩ := Option.isSome_iff_exists.1
    (List.find?_isSome (p := fun x : Run => x.id == r.id).2 ⟨r, h, by simp⟩)
  have hid : x.id = r.id := t.find_id hx
  rw [RunsTable.find, hx, List.inj_on_of_nodup_map t.ids_nodup (List.mem_of_find?_eq_some hx) h hid]

theorem RunsTable.find_mem {t : RunsTable} {id : Int} {r : Run} (h : t.find id = some r) :
    r ∈ t.rows := List.mem_of_find?_eq_some h

theorem RunsTable.find_lt {t : RunsTable} {id : Int} {r : Run} (h : t.find id = some r) :
    id < t.nextId := by
  have := t.ids_lt r (t.find_mem h)
  rwa [t.find_id h] at this

/-- The row an INSERT of `create_run` adds. -/
def newRun (id : Int) (jobId : Uuid) (deviceId triggeredBy : String) (now : DateTime) : Run where
  id := id
  jobId := jobId
  deviceId := deviceId
  startTime := now
  endTime := none
  status := "running"
  exitCode := none
  errorMessage := none
  filesNew := none
  filesChanged := none
  filesUnmodified := none
  dirsNew := none
  dirsChanged := none
  dirsUnmodified := none
  dataAddedBytes := none
  totalFilesProcessed := none
  totalBytesProcessed := none
  durationSeconds := none
  snapshotId := none
  resticOutput := none
  resticErrors := none
  triggeredBy := triggeredBy

def RunsTable.insert (t : RunsTable) (jobId : Uuid) (deviceId triggeredBy : String)
    (now : DateTime) : RunsTable where
  rows := t.rows ++ [newRun t.nextId jobId deviceId triggeredBy now]
  nextId := t.nextId + 1
  ids_lt := by
    intro r hr
    rcases List.mem_append.1 hr with hr | hr
    · have := t.ids_lt r hr; omega
    · rw [List.mem_singleton.1 hr]; simp only [newRun]; omega
  ids_nodup := by
    rw [List.map_append, List.nodup_append]
    refine ⟨t.ids_nodup, by simp, ?_⟩
    intro a ha b hb hab
    obtain ⟨r, hr, rfl⟩ := List.mem_map.1 ha
    have := t.ids_lt r hr
    simp only [List.map_cons, List.map_nil, List.mem_singleton, newRun] at hb
    omega

/-- `INSERT INTO runs (job_id, device_id, start_time, status, triggered_by)
    VALUES ($1, $2, NOW(), 'running', $3) RETURNING id`; `now` is the server's clock.  A failed
    INSERT may still draw an id from the sequence, which only changes later ids. -/
def createRun (o : DbOutcome) (now : DateTime) (jobId : Uuid) (deviceId triggeredBy : String)
    (t : RunsTable) : RunsTable × Except AppError Int :=
  (if o.applied then t.insert jobId deviceId triggeredBy now else t, o.result t.nextId)

/-- The arguments of `update_run` after the pool and the id. -/
structure RunUpdate where
  status : String
  exitCode : Option Int
  errorMessage : Option String
  filesNew : Option Int
  filesChanged : Option Int
  filesUnmodified : Option Int
  dataAddedBytes : Option Int
  snapshotId : Option String
  resticOutput : Option String
  resticErrors : Option String
  deriving DecidableEq, Repr

/-- `EXTRACT(EPOCH FROM d)::INTEGER`: whole seconds, halves rounded away from zero. -/
def extractEpoch (d : Int) : Int := d.sign * ((2 * d.natAbs + 1000000000) / 2000000000 : Nat)

/-- A duration that is not negative is rounded to the second it is less than half a second before
    or at most half a second behind. -/
theorem extractEpoch_eq_iff {d q : Int} (hd : 0 ≤ d) :
    extractEpoch d = q ↔ q * 1000000000 - 500000000 ≤ d ∧ d < q * 1000000000 + 500000000 := by
  have habs : extractEpoch d = (2 * d + 1000000000) / 2000000000 := by
    rcases Int.lt_or_eq_of_le hd with hpos | rfl
    · rw [extractEpoch, Int.sign_eq_one_of_pos hpos]
      omega
    · rfl
  rw [habs]
  omega

/-- The SET list of `update_run`. -/
def Run.finish (r : Run) (endTime : DateTime) (u : RunUpdate) : Run :=
  { r with
    endTime := some (timestamptz endTime)
    status := u.status
    exitCode := u.exitCode
    errorMessage := u.errorMessage
    filesNew := u.filesNew
    filesChanged := u.filesChanged
    filesUnmodified := u.filesUnmodified
    dataAddedBytes := u.dataAddedBytes
    snapshotId := u.snapshotId
    resticOutput := u.resticOutput
    resticErrors := u.resticErrors
    durationSeconds := some (extractEpoch (timestamptz endTime - r.startTime)) }

/-- `UPDATE runs SET … WHERE id = $1`. -/
def RunsTable.update (t : RunsTable) (id : Int) (endTime : DateTime) (u : RunUpdate) :
    RunsTable where
  rows := t.rows.map fun r => if r.id = id then r.finish endTime u else r
  nextId := t.nextId
  ids_lt := by
    intro r hr
    obtain ⟨x, hx, rfl⟩ := List.mem_map.1 hr
    have := t.ids_lt x hx
    split <;> exact this
  ids_nodup := by
    have hids : (t.rows.map fun r => if r.id = id then r.finish endTime u else r).map (·.id) =
        t.rows.map (·.id) := by
      rw [List.map_map]
      refine List.map_congr_left fun r _ => ?_
      simp only [Function.comp_apply]
      split <;> rfl
    rw [hids]
    exact t.ids_nodup

/-- `update_run`; `endTime` is the client's clock. -/
def updateRun (o : DbOutcome) (runId : Int) (endTime : DateTime) (u : RunUpdate) (t : RunsTable) :
    RunsTable × Except AppError Unit :=
  (if o.applied then t.update runId endTime u else t, o.result ())

/-! ## What the two statements do to the rows -/

theorem insert_find_new (t : RunsTable) (jobId : Uuid) (deviceId triggeredBy : String)
    (now : DateTime) : (t.insert jobId deviceId triggeredBy now).find t.nextId =
      some (newRun t.nextId jobId deviceId triggeredBy now) :=
  RunsTable.find_of_mem (t := t.insert jobId deviceId triggeredBy now)
    (r := newRun t.nextId jobId deviceId triggeredBy now) (by simp [RunsTable.insert])

theorem insert_find_old (t : RunsTable) (jobId : Uuid) (deviceId triggeredBy : String)
    (now : DateTime) {id : Int} (h : id ≠ t.nextId) :
    (t.insert jobId deviceId triggeredBy now).find id = t.find id := by
  simp [RunsTable.find, RunsTable.insert, List.find?_append, newRun, Ne.symm h]

theorem update_find (t : RunsTable) (id : Int) (endTime : DateTime) (u : RunUpdate) (k : Int) :
    (t.update id endTime u).find k =
      (t.find k).map fun r => if r.id = id then r.finish endTime u else r := by
  simp only [RunsTable.find, RunsTable.update, List.find?_map]
  congr 2
  funext r
  simp only [Function.comp_apply]
  split <;> rfl

theorem update_find_self {t : RunsTable} {id : Int} {r : Run} (h : t.find id = some r)
    (endTime : DateTime) (u : RunUpdate) :
    (t.update id endTime u).find id = some (r.finish endTime u) := by
  rw [update_find, h, Option.map_some, if_pos (t.find_id h)]

theorem update_find_other (t : RunsTable) {id k : Int} (h : k ≠ id) (endTime : DateTime)
    (u : RunUpdate) : (t.update id endTime u).find k = t.find k := by
  rw [update_find]
  cases hf : t.find k with
  | none => rfl
  | some r => rw [Option.map_some, if_neg (by rw [t.find_id hf]; exact h)]

end RBackup2
