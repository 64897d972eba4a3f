import RBackup2.Db.Models
import RBackup2.Lib.Sql

/-!
# The schema and the models

The five tables of `migrations/20250101000001_initial_schema.sql`, column by column, the structs of
`db/models.rs` they are decoded into, field by field, and the queries of `db/queries.rs` that
decode whole rows.

* `Database.Admitted` — the constraints of the migrations: types, `NOT NULL`, keys, references and
  checks.
* `devices_gaps`, `backupJobs_gaps`, … — where a table admits a NULL its struct has no place for:
  the columns with a default but no `NOT NULL`, `triggered_by`, and the elements of the arrays.
* `queries_decode_iff` — the queries decode every row they select exactly if none of these rows has
  such a NULL.
-/

set_option autoImplicit false

namespace RBackup2

open Sql

/-! ## Tables -/

def nullable (name : String) (type : SqlType) : Column := ⟨name, type, false⟩

def notNull (name : String) (type : SqlType) : Column := ⟨name, type, true⟩

def devicesTable : List Column :=
  [notNull "id" (.varchar 255), notNull "name" (.varchar 255), nullable "description" .text,
    notNull "platform" (.varchar 50), nullable "hostname" (.varchar 255),
    nullable "last_seen" .timestamptz, notNull "created_at" .timestamptz,
    notNull "updated_at" .timestamptz, notNull "enabled" .boolean, nullable "metadata" .jsonb]

def backupJobsTable : List Column :=
  [notNull "id" .uuid, notNull "device_id" (.varchar 255), notNull "name" (.varchar 255),
    nullable "description" .text, notNull "source_paths" .textArray,
    nullable "exclude_patterns" .textArray, nullable "tags" .textArray,
    nullable "restic_args" .jsonb, notNull "enabled" .boolean, notNull "created_at" .timestamptz,
    notNull "updated_at" .timestamptz, nullable "metadata" .jsonb,
    nullable "origin_name" (.varchar 255), nullable "origin_id" .uuid, nullable "account_id" .uuid]

def schedulesTable : List Column :=
  [notNull "id" .integer, notNull "job_id" .uuid, notNull "schedule_type" (.varchar 50),
    nullable "cron_expression" (.varchar 255), nullable "interval_seconds" .integer,
    notNull "enabled" .boolean, nullable "last_run_at" .timestamptz,
    nullable "next_run_at" .timestamptz, notNull "created_at" .timestamptz,
    notNull "updated_at" .timestamptz, nullable "metadata" .jsonb]

def runsTable : List Column :=
  [notNull "id" .integer, notNull "job_id" .uuid, notNull "device_id" (.varchar 255),
    notNull "start_time" .timestamptz, nullable "end_time" .timestamptz,
    notNull "status" (.varchar 50), nullable "exit_code" .integer, nullable "error_message" .text,
    nullable "files_new" .integer, nullable "files_changed" .integer,
    nullable "files_unmodified" .integer, nullable "dirs_new" .integer,
    nullable "dirs_changed" .integer, nullable "dirs_unmodified" .integer,
    nullable "data_added_bytes" .bigint, nullable "total_files_processed" .integer,
    nullable "total_bytes_processed" .bigint, nullable "duration_seconds" .integer,
    nullable "snapshot_id" (.varchar 255), nullable "restic_output" .text,
    nullable "restic_errors" .text, nullable "triggered_by" (.varchar 50),
    notNull "created_at" .timestamptz, nullable "metadata" .jsonb]

def settingsTable : List Column :=
  [notNull "id" .integer, nullable "device_id" (.varchar 255), notNull "key" (.varchar 255),
    notNull "value" .text, nullable "description" .text, notNull "created_at" .timestamptz,
    notNull "updated_at" .timestamptz]

/-! ## Structs -/

def deviceFields : List Field :=
  [⟨"id", .string⟩, ⟨"name", .string⟩, ⟨"description", .option .string⟩, ⟨"platform", .string⟩,
    ⟨"hostname", .option .string⟩, ⟨"last_seen", .option .dateTime⟩, ⟨"created_at", .dateTime⟩,
    ⟨"updated_at", .dateTime⟩, ⟨"enabled", .bool⟩, ⟨"metadata", .json⟩]

def backupJobFields : List Field :=
  [⟨"id", .uuid⟩, ⟨"device_id", .string⟩, ⟨"name", .string⟩, ⟨"description", .option .string⟩,
    ⟨"source_paths", .vec .string⟩, ⟨"exclude_patterns", .option (.vec .string)⟩,
    ⟨"tags", .option (.vec .string)⟩, ⟨"restic_args", .json⟩, ⟨"enabled", .bool⟩,
    ⟨"created_at", .dateTime⟩, ⟨"updated_at", .dateTime⟩, ⟨"metadata", .json⟩,
    ⟨"origin_name", .option .string⟩, ⟨"origin_id", .option .uuid⟩, ⟨"account_id", .option .uuid⟩]

def scheduleFields : List Field :=
  [⟨"id", .i32⟩, ⟨"job_id", .uuid⟩, ⟨"schedule_type", .string⟩,
    ⟨"cron_expression", .option .string⟩, ⟨"interval_seconds", .option .i32⟩, ⟨"enabled", .bool⟩,
    ⟨"last_run_at", .option .dateTime⟩, ⟨"next_run_at", .option .dateTime⟩,
    ⟨"created_at", .dateTime⟩, ⟨"updated_at", .dateTime⟩, ⟨"metadata", .json⟩]

def runFields : List Field :=
  [⟨"id", .i32⟩, ⟨"job_id", .uuid⟩, ⟨"device_id", .string⟩, ⟨"start_time", .dateTime⟩,
    ⟨"end_time", .option .dateTime⟩, ⟨"status", .string⟩, ⟨"exit_code", .option .i32⟩,
    ⟨"error_message", .option .string⟩, ⟨"files_new", .option .i32⟩,
    ⟨"files_changed", .option .i32⟩, ⟨"files_unmodified", .option .i32⟩,
    ⟨"dirs_new", .option .i32⟩, ⟨"dirs_changed", .option .i32⟩, ⟨"dirs_unmodified", .option .i32⟩,
    ⟨"data_added_bytes", .option .i64⟩, ⟨"total_files_processed", .option .i32⟩,
    ⟨"total_bytes_processed", .option .i64⟩, ⟨"duration_seconds", .option .i32⟩,
    ⟨"snapshot_id", .option .string⟩, ⟨"restic_output", .option .string⟩,
    ⟨"restic_errors", .option .string⟩, ⟨"triggered_by", .string⟩, ⟨"created_at", .dateTime⟩,
    ⟨"metadata", .json⟩]

def settingFields : List Field :=
  [⟨"id", .i32⟩, ⟨"device_id", .option .string⟩, ⟨"key", .string⟩, ⟨"value", .string⟩,
    ⟨"description", .option .string⟩, ⟨"created_at", .dateTime⟩, ⟨"updated_at", .dateTime⟩]

/-! ## Contents -/

structure Database where
  devices : List Row
  backupJobs : List Row
  schedules : List Row
  runs : List Row
  settings : List Row

/-- `check_schedule_type` and `check_cron_expression`. -/
def checkSchedule (r : Row) : Prop :=
  (r "schedule_type" = .text "cron" ∨ r "schedule_type" = .text "interval") ∧
    ((r "schedule_type" = .text "cron" ∧ r "cron_expression" ≠ .null) ∨
      (r "schedule_type" = .text "interval" ∧ r "interval_seconds" ≠ .null))

instance (r : Row) : Decidable (checkSchedule r) := inferInstanceAs (Decidable (_ ∧ _))

/-- `check_status`. -/
def checkStatus (r : Row) : Prop :=
  r "status" ∈ [.text "running", .text "success", .text "failed", Value.text "cancelled"]

instance (r : Row) : Decidable (checkStatus r) := inferInstanceAs (Decidable (_ ∈ _))

/-- The column refers to the primary key of one of the rows. -/
def References (r : Row) (column : String) (rows : List Row) : Prop :=
  ∃ x ∈ rows, x "id" = r column

instance (r : Row) (column : String) (rows : List Row) : Decidable (References r column rows) :=
  inferInstanceAs (Decidable (∃ _ ∈ _, _))

/-- What the constraints of the migrations admit. -/
structure Database.Admitted (db : Database) : Prop where
  devices : ∀ r ∈ db.devices, Admits devicesTable r
  backupJobs : ∀ r ∈ db.backupJobs, Admits backupJobsTable r ∧ References r "device_id" db.devices
  schedules : ∀ r ∈ db.schedules, Admits schedulesTable r ∧ checkSchedule r ∧
    References r "job_id" db.backupJobs
  runs : ∀ r ∈ db.runs, Admits runsTable r ∧ checkStatus r ∧ References r "job_id" db.backupJobs ∧
    References r "device_id" db.devices
  settings : ∀ r ∈ db.settings, Admits settingsTable r ∧
    (r "device_id" = .null ∨ References r "device_id" db.devices)
  primaryKeys : ∀ rows ∈ [db.devices, db.backupJobs, db.schedules, db.runs, db.settings],
    (rows.map fun r => r "id").Nodup
  /-- `UNIQUE (device_id, name)`. -/
  jobNames : (db.backupJobs.map fun r => (r "device_id", r "name")).Nodup
  /-- `UNIQUE (device_id, key)`, which lets a key stand several times without a device. -/
  settingKeys : ((db.settings.filter fun r => r "device_id" != .null).map fun r =>
    (r "device_id", r "key")).Nodup

/-! ## The rows the queries select -/

namespace Database

/-- `SELECT * FROM devices WHERE id = $1`. -/
def deviceRows (db : Database) (deviceId : String) : List Row :=
  db.devices.filter fun r => r "id" == .text deviceId

/-- `SELECT * FROM backup_jobs WHERE device_id = $1 AND enabled = true`. -/
def jobRows (db : Database) (deviceId : String) : List Row :=
  db.backupJobs.filter fun r => r "device_id" == .text deviceId && r "enabled" == .bool true

/-- `SELECT * FROM backup_jobs WHERE id = $1`. -/
def jobByIdRows (db : Database) (jobId : Uuid) : List Row :=
  db.backupJobs.filter fun r => r "id" == .uuid jobId

/-- `SELECT s.* FROM schedules s JOIN backup_jobs j ON s.job_id = j.id
    WHERE j.device_id = $1 AND j.enabled = true AND s.enabled = true`. -/
def scheduleRows (db : Database) (deviceId : String) : List Row :=
  db.schedules.filter fun s => s "enabled" == .bool true &&
    (db.jobRows deviceId).any fun j => s "job_id" == j "id"

def startsNoEarlier (a b : Row) : Bool :=
  match a "start_time", b "start_time" with
  | .timestamp t, .timestamp u => decide (u ≤ t)
  | _, _ => true

/-- `SELECT * FROM runs WHERE device_id = $1 ORDER BY start_time DESC LIMIT $2`; runs of one start
    time come in the order of the table, which means nothing.  A negative limit is refused by the
    server, and selects no row. -/
def recentRunRows (db : Database) (deviceId : String) (limit : Int) : List Row :=
  ((db.runs.filter fun r => r "device_id" == .text deviceId).mergeSort startsNoEarlier).take
    limit.toNat

/-- `SELECT * FROM settings WHERE device_id IS NULL OR device_id = $1
    ORDER BY device_id NULLS FIRST`. -/
def settingRows (db : Database) (deviceId : String) : List Row :=
  (db.settings.filter fun r => r "device_id" == .null) ++
    db.settings.filter fun r => r "device_id" == .text deviceId

/-! ## The queries -/

def getDevice (db : Database) (deviceId : String) : Except DecodeError (Option (List Value)) :=
  fetchOptional devicesTable deviceFields (db.deviceRows deviceId)

def getJobsForDevice (db : Database) (deviceId : String) :
    Except DecodeError (List (List Value)) :=
  fetchAll backupJobsTable backupJobFields (db.jobRows deviceId)

def getJobById (db : Database) (jobId : Uuid) : Except DecodeError (Option (List Value)) :=
  fetchOptional backupJobsTable backupJobFields (db.jobByIdRows jobId)

def getSchedulesForDevice (db : Database) (deviceId : String) :
    Except DecodeError (List (List Value)) :=
  fetchAll schedulesTable scheduleFields (db.scheduleRows deviceId)

def getRecentRuns (db : Database) (deviceId : String) (limit : Int) :
    Except DecodeError (List (List Value)) :=
  fetchAll runsTable runFields (db.recentRunRows deviceId limit)

def getSettingsForDevice (db : Database) (deviceId : String) :
    Except DecodeError (List (List Value)) :=
  fetchAll settingsTable settingFields (db.settingRows deviceId)

/-- Every query decodes the rows it selects. -/
structure Decodes (db : Database) (deviceId : String) (jobId : Uuid) (limit : Int) : Prop where
  jobs : ∃ vss, db.getJobsForDevice deviceId = .ok vss
  job : ∃ o, db.getJobById jobId = .ok o
  schedules : ∃ vss, db.getSchedulesForDevice deviceId = .ok vss
  runs : ∃ vss, db.getRecentRuns deviceId limit = .ok vss
  settings : ∃ vss, db.getSettingsForDevice deviceId = .ok vss
  device : ∃ o, db.getDevice deviceId = .ok o

/-- The rows the queries select have no NULL the structs have no place for. -/
structure Complete (db : Database) (deviceId : String) (jobId : Uuid) (limit : Int) : Prop where
  jobs : ∀ r ∈ db.jobRows deviceId,
    r.Without ["restic_args", "metadata"] ["source_paths", "exclude_patterns", "tags"]
  job : ∀ r ∈ db.jobByIdRows jobId,
    r.Without ["restic_args", "metadata"] ["source_paths", "exclude_patterns", "tags"]
  schedules : ∀ r ∈ db.scheduleRows deviceId, r.Without ["metadata"] []
  runs : ∀ r ∈ db.recentRunRows deviceId limit, r.Without ["triggered_by", "metadata"] []
  device : ∀ r ∈ db.deviceRows deviceId, r.Without ["metadata"] []

end Database

/-! ## Where the schema and the models disagree -/

theorem devices_gaps : Matches devicesTable deviceFields = true ∧
    nullGaps devicesTable deviceFields = ["metadata"] ∧ elementGaps deviceFields = [] := by
  decide

theorem backupJobs_gaps : Matches backupJobsTable backupJobFields = true ∧
    nullGaps backupJobsTable backupJobFields = ["restic_args", "metadata"] ∧
    elementGaps backupJobFields = ["source_paths", "exclude_patterns", "tags"] := by
  decide

theorem schedules_gaps : Matches schedulesTable scheduleFields = true ∧
    nullGaps schedulesTable scheduleFields = ["metadata"] ∧ elementGaps scheduleFields = [] := by
  decide

theorem runs_gaps : Matches runsTable runFields = true ∧
    nullGaps runsTable runFields = ["triggered_by", "metadata"] ∧ elementGaps runFields = [] := by
  decide

theorem settings_gaps : Matches settingsTable settingFields = true ∧
    nullGaps settingsTable settingFields = [] ∧ elementGaps settingFields = [] := by
  decide

section Queries

variable {columns : List Column} {fields : List Field} {nulls elements : List String}
  (hgaps : Matches columns fields = true ∧ nullGaps columns fields = nulls ∧
    elementGaps fields = elements)

include hgaps

/-- A query for all rows decodes exactly if none of them has a NULL in a gap of its table. -/
theorem fetchAll_decodes_iff {rows : List Row} (hadm : ∀ r ∈ rows, Admits columns r) :
    (∃ vss, fetchAll columns fields rows = .ok vss) ↔ ∀ r ∈ rows, r.Without nulls elements := by
  obtain ⟨hm, rfl, rfl⟩ := hgaps
  rw [fetchAll_ok_iff]
  refine forall_congr' fun r => forall_congr' fun hr => ?_
  exact decodeRow_ok_iff (hadm r hr) hm

/-- So does a query by a key, which selects one row at most. -/
theorem fetchOptional_decodes_iff {rows : List Row} {key : String} {v : Value}
    (hnd : (rows.map fun r => r key).Nodup) (hadm : ∀ r ∈ rows, Admits columns r) :
    (∃ o, fetchOptional columns fields (rows.filter fun r => r key == v) = .ok o) ↔
      ∀ r ∈ rows.filter fun r => r key == v, r.Without nulls elements := by
  obtain ⟨hm, rfl, rfl⟩ := hgaps
  rw [fetchOptional_ok_iff]
  refine forall_congr' fun r => ?_
  rw [head?_filter_key hnd]
  refine forall_congr' fun hr => ?_
  exact decodeRow_ok_iff (hadm r (List.mem_filter.1 hr).1) hm

end Queries

theorem Database.mem_runs {db : Database} {deviceId : String} {limit : Int} {r : Row}
    (h : r ∈ db.recentRunRows deviceId limit) : r ∈ db.runs := by
  have hsort := List.mem_of_mem_take h
  rw [List.mem_mergeSort] at hsort
  exact (List.mem_filter.1 hsort).1

/-- **Exactly when the queries decode what they select**: for every content the constraints admit,
    when no selected row has a NULL `metadata`, `restic_args` or `triggered_by`, or a NULL among
    its source paths, exclude patterns or tags. -/
theorem queries_decode_iff (db : Database) (hadm : db.Admitted) (deviceId : String) (jobId : Uuid)
    (limit : Int) : db.Decodes deviceId jobId limit ↔ db.Complete deviceId jobId limit := by
  have hjobs : ∀ r ∈ db.backupJobs, Admits backupJobsTable r := fun r hr =>
    (hadm.backupJobs r hr).1
  have hruns : ∀ r ∈ db.recentRunRows deviceId limit, Admits runsTable r := fun r hr =>
    (hadm.runs r (Database.mem_runs hr)).1
  have hsettings : ∀ r ∈ db.settingRows deviceId, Admits settingsTable r := by
    intro r hr
    rcases List.mem_append.1 hr with hr | hr
    · exact (hadm.settings r (List.mem_filter.1 hr).1).1
    · exact (hadm.settings r (List.mem_filter.1 hr).1).1
  have hschedules : ∀ r ∈ db.scheduleRows deviceId, Admits schedulesTable r := fun r hr =>
    (hadm.schedules r (List.mem_filter.1 hr).1).1
  have hjobRows : ∀ r ∈ db.jobRows deviceId, Admits backupJobsTable r := fun r hr =>
    hjobs r (List.mem_filter.1 hr).1
  have qjobs := fetchAll_decodes_iff backupJobs_gaps hjobRows
  have qjob := fetchOptional_decodes_iff backupJobs_gaps (v := .uuid jobId)
    (hadm.primaryKeys db.backupJobs (by simp)) hjobs
  have qschedules := fetchAll_decodes_iff schedules_gaps hschedules
  have qruns := fetchAll_decodes_iff runs_gaps hruns
  have qsettings := fetchAll_decodes_iff settings_gaps hsettings
  have qdevice := fetchOptional_decodes_iff devices_gaps (v := .text deviceId)
    (hadm.primaryKeys db.devices (by simp)) hadm.devices
  constructor
  · intro h
    exact ⟨qjobs.1 h.jobs, qjob.1 h.job, qschedules.1 h.schedules, qruns.1 h.runs,
      qdevice.1 h.device⟩
  · intro h
    refine ⟨qjobs.2 h.jobs, qjob.2 h.job, qschedules.2 h.schedules, qruns.2 h.runs,
      qsettings.2 fun r _ => ?_, qdevice.2 h.device⟩
    constructor
    · intro n hn
      cases hn
    · intro n hn
      cases hn

/-! ## Some contents -/

/-- A device with one job, one schedule, one run and one setting; the metadata of the job is
    given. -/
def Database.sample (metadata : Value) : Database where
  devices := [fun
    | "id" => .text "blade"
    | "name" => .text "blade"
    | "platform" => .text "linux"
    | "created_at" => .timestamp 0
    | "updated_at" => .timestamp 0
    | "enabled" => .bool true
    | "metadata" => .json "\x7b\x7d"
    | _ => .null]
  backupJobs := [fun
    | "id" => .uuid 1
    | "device_id" => .text "blade"
    | "name" => .text "blade/home"
    | "source_paths" => .array [some "/home"]
    | "restic_args" => .json "[]"
    | "enabled" => .bool true
    | "created_at" => .timestamp 0
    | "updated_at" => .timestamp 0
    | "metadata" => metadata
    | _ => .null]
  schedules := [fun
    | "id" => .int 1
    | "job_id" => .uuid 1
    | "schedule_type" => .text "interval"
    | "interval_seconds" => .int 3600
    | "enabled" => .bool true
    | "created_at" => .timestamp 0
    | "updated_at" => .timestamp 0
    | "metadata" => .json "\x7b\x7d"
    | _ => .null]
  runs := [fun
    | "id" => .int 1
    | "job_id" => .uuid 1
    | "device_id" => .text "blade"
    | "start_time" => .timestamp 0
    | "status" => .text "running"
    | "triggered_by" => .text "manual"
    | "created_at" => .timestamp 0
    | "metadata" => .json "\x7b\x7d"
    | _ => .null]
  settings := [fun
    | "id" => .int 1
    | "key" => .text "repository_url"
    | "value" => .text ""
    | "created_at" => .timestamp 0
    | "updated_at" => .timestamp 0
    | _ => .null]

/-- The column `metadata` may be NULL. -/
theorem Database.sample_admitted {metadata : Value}
    (h : metadata = .json "\x7b\x7d" ∨ metadata = .null) : (Database.sample metadata).Admitted := by
  rcases h with rfl | rfl
  · exact ⟨by decide, by decide, by decide, by decide, by decide, by decide, by decide, by decide⟩
  · exact ⟨by decide, by decide, by decide, by decide, by decide, by decide, by decide, by decide⟩

/-- With a metadata object everything is decoded. -/
theorem queries_decode_iff_sample :
    let db := Database.sample (.json "\x7b\x7d")
    db.Admitted ∧ db.Decodes "blade" 1 10 := by
  intro db
  have hadm : db.Admitted := Database.sample_admitted (.inl rfl)
  have hruns : ∀ r ∈ db.runs, r.Without ["triggered_by", "metadata"] [] := by decide
  have hcomplete : db.Complete "blade" 1 10 :=
    ⟨by decide, by decide, by decide, fun r hr => hruns r (Database.mem_runs hr), by decide⟩
  exact ⟨hadm, (queries_decode_iff db hadm "blade" 1 10).2 hcomplete⟩

/-- A job whose metadata is NULL, as the schema lets it be: no job of the device is loaded. -/
theorem null_metadata_fails_query :
    ¬ ∀ (db : Database), db.Admitted → ∀ (deviceId : String) (jobId : Uuid) (limit : Int),
      db.Decodes deviceId jobId limit := by
  intro h
  obtain ⟨vss, hvss⟩ := (h (.sample .null) (Database.sample_admitted (.inr rfl)) "blade" 1 10).jobs
  have hfail : (Database.sample .null).getJobsForDevice "blade" =
      .error (.unexpectedNull "metadata") := by decide
  cases hfail.symm.trans hvss

end RBackup2
