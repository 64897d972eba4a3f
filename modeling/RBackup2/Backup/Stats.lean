import RBackup2.Backup.Execute

/-!
# What becomes of the statistics

restic's summary is parsed into a `BackupStats` of nine counters and a snapshot, and the table
`runs` has a column for each of the ten.  The UPDATE that closes a run sets five of them.

* `executeBackup_ok` — what a call that returns `Ok` has done: its record is the one it inserted,
  closed with the statistics its output parsed to.
* `statistics_lost` — five statistics arrive, the other five never do.
-/

set_option autoImplicit false

namespace RBackup2

/-- Every statistic stands in the column of the same meaning. -/
structure Run.Carries (r : Run) (stats : BackupStats) : Prop where
  filesNew : r.filesNew = some stats.filesNew
  filesChanged : r.filesChanged = some stats.filesChanged
  filesUnmodified : r.filesUnmodified = some stats.filesUnmodified
  dirsNew : r.dirsNew = some stats.dirsNew
  dirsChanged : r.dirsChanged = some stats.dirsChanged
  dirsUnmodified : r.dirsUnmodified = some stats.dirsUnmodified
  dataAddedBytes : r.dataAddedBytes = some stats.dataAddedBytes
  totalFilesProcessed : r.totalFilesProcessed = some stats.totalFilesProcessed
  totalBytesProcessed : r.totalBytesProcessed = some stats.totalBytesProcessed
  snapshotId : r.snapshotId = some stats.snapshotId

/-- The statistics `update_run` has arguments for are there, and the other columns are NULL. -/
structure Run.CarriesPart (r : Run) (stats : BackupStats) : Prop where
  filesNew : r.filesNew = some stats.filesNew
  filesChanged : r.filesChanged = some stats.filesChanged
  filesUnmodified : r.filesUnmodified = some stats.filesUnmodified
  dataAddedBytes : r.dataAddedBytes = some stats.dataAddedBytes
  snapshotId : r.snapshotId = some stats.snapshotId
  dirs : r.dirsNew = none ∧ r.dirsChanged = none ∧ r.dirsUnmodified = none
  totals : r.totalFilesProcessed = none ∧ r.totalBytesProcessed = none

theorem Run.CarriesPart.not_carries {r : Run} {stats : BackupStats} (h : r.CarriesPart stats) :
    ¬ r.Carries stats := by
  intro hall
  have hdirs := hall.dirsNew
  rw [h.dirs.1] at hdirs
  cases hdirs

/-- A new record closed by `update_run_with_success`. -/
theorem carriesPart_finish (id : Int) (jobId : Uuid) (deviceId triggeredBy stdout : String)
    (createdAt updatedAt : DateTime) (exitCode : Int) (stats : BackupStats)
    (stderr : Option String) :
    ((newRun id jobId deviceId triggeredBy createdAt).finish updatedAt
      (successUpdate exitCode stats stdout stderr)).CarriesPart stats :=
  ⟨rfl, rfl, rfl, rfl, rfl, ⟨rfl, rfl, rfl⟩, ⟨rfl, rfl⟩⟩

/-- The UPDATE and the return of a command that ends the backup with `Ok`. -/
theorem conclude_ok {serde : SerdeJson} {runId id : Int} {r : Except AppError Output}
    (h : (conclude serde runId r).2 = .ok id) :
    ∃ output stats, r = .ok output ∧ output.success = true ∧
      parseResticJsonOutput serde output.stdout = .ok stats ∧ id = runId ∧
      (conclude serde runId r).1 = successUpdate (output.code.getD (-1)) stats output.stdout
        (if output.stderr ≠ "" then some output.stderr else none) := by
  cases r with
  | error e => cases h
  | ok output =>
    by_cases hs : output.success = false
    · simp only [conclude, if_pos hs] at h
      cases h
    · simp only [conclude, if_neg hs] at h ⊢
      split at h
      · cases h
      · rename_i stats hparse
        cases h
        exact ⟨output, stats, rfl, by simpa using hs, hparse, rfl, rfl⟩

/-- **What a call that returns `Ok` has done.** -/
theorem executeBackup_ok {serde : SerdeJson} {env : BackupEnv} {job : BackupJob}
    {config : RemoteConfig} {t t' : RunsTable} {id : Int}
    (h : executeBackup serde env job config t = (t', .ok id)) :
    ∃ cmd output stats, ResticCommand.new env.os env.which config = .ok cmd ∧
      executeResticCommand env.spawn cmd job = .ok output ∧ output.success = true ∧
      parseResticJsonOutput serde output.stdout = .ok stats ∧
      t'.find id = some ((newRun id job.id job.deviceId "manual" env.createdAt).finish env.updatedAt
        (successUpdate (output.code.getD (-1)) stats output.stdout
          (if output.stderr ≠ "" then some output.stderr else none))) := by
  rw [executeBackup_eq] at h
  by_cases hc : env.create = .done
  · simp only [createRun, hc, DbOutcome.applied, DbOutcome.result, if_true] at h
    have hnew := insert_find_new t job.id job.deviceId "manual" env.createdAt
    cases hcmd : ResticCommand.new env.os env.which config with
    | error e =>
      rw [hcmd] at h
      cases h
    | ok cmd =>
      simp only [hcmd, closeRun, updateRun] at h
      by_cases hu : env.update = .done
      · simp only [hu, DbOutcome.applied, DbOutcome.result, if_true, Prod.mk.injEq] at h
        obtain ⟨rfl, hret⟩ := h
        obtain ⟨output, stats, hspawn, hs, hparse, rfl, hu'⟩ := conclude_ok hret
        rw [hu']
        exact ⟨cmd, output, stats, rfl, hspawn, hs, hparse, update_find_self hnew _ _⟩
      · obtain ⟨e, he⟩ := DbOutcome.result_of_ne_done hu
        simp only [he] at h
        cases h
  · obtain ⟨e, he⟩ := DbOutcome.result_of_ne_done hc
    simp only [createRun, he] at h
    cases h

/-- **The statistics do not survive.**  Whenever `execute_backup` returns `Ok`, its process exited
    with success, its output parsed to a `BackupStats`, and the record read back carries five of
    the ten: the counters of directories and the two totals are NULL, so the record never carries
    every statistic. -/
theorem statistics_lost (serde : SerdeJson) (env : BackupEnv) (job : BackupJob)
    (config : RemoteConfig) (t t' : RunsTable) (id : Int)
    (h : executeBackup serde env job config t = (t', .ok id)) :
    ∃ cmd output stats r, ResticCommand.new env.os env.which config = .ok cmd ∧
      executeResticCommand env.spawn cmd job = .ok output ∧ output.success = true ∧
      parseResticJsonOutput serde output.stdout = .ok stats ∧
      t'.find id = some r ∧ r.CarriesPart stats ∧ ¬ r.Carries stats := by
  obtain ⟨cmd, output, stats, hcmd, hspawn, hs, hparse, hrow⟩ := executeBackup_ok h
  have hpart := carriesPart_finish id job.id job.deviceId "manual" output.stdout env.createdAt
    env.updatedAt (output.code.getD (-1)) stats
    (if output.stderr ≠ "" then some output.stderr else none)
  exact ⟨cmd, output, stats, _, hcmd, hspawn, hs, hparse, hrow, hpart, hpart.not_carries⟩

/-- A backup in which everything succeeds and restic prints `stdout`. -/
def BackupEnv.printing (stdout : String) : BackupEnv where
  os := .other
  which := fun name => .ok ("/usr/bin/" ++ name)
  spawn := fun _ => .ok ⟨some 0, stdout, ""⟩
  create := .done
  createdAt := seconds 1735689600
  update := .done
  updatedAt := seconds 1735689660

/-- A summary line with two new directories. -/
def dirsLine : String :=
  "\x7b\"message_type\":\"summary\",\"dirs_new\":2,\"snapshot_id\":\"abc123\"\x7d"

/-- What serde_json makes of `dirsLine`, and of a line that is no JSON. -/
def SerdeJson.ofDirsLine : SerdeJson where
  messageType := fun line =>
    if line = dirsLine then .ok ⟨"summary"⟩ else .error "expected value at line 1 column 1"
  summary := fun line =>
    if line = dirsLine then
      .ok ⟨none, none, none, some 2, none, none, none, none, none, some "abc123"⟩
    else .error "expected value at line 1 column 1"

/-- Two new directories, and the column is NULL. -/
theorem statistics_lost_dirs :
    ∃ t' r stats, executeBackup .ofDirsLine (.printing dirsLine) (.plain 1 "blade")
        (.ofRepository "sftp:user@host:/path" "secret") .empty = (t', .ok 1) ∧
      t'.find 1 = some r ∧ stats.dirsNew = 2 ∧ r.CarriesPart stats ∧ ¬ r.Carries stats := by
  obtain ⟨cmd, output, stats, r, hcmd, hspawn, -, hparse, hrow, hpart, hnot⟩ :=
    statistics_lost .ofDirsLine (.printing dirsLine) (.plain 1 "blade")
      (.ofRepository "sftp:user@host:/path" "secret") .empty _ 1 rfl
  refine ⟨_, r, stats, rfl, hrow, ?_, hpart, hnot⟩
  cases hspawn
  cases hparse
  rfl

/-- A backup whose record, read back after `Ok`, lacks a statistic of its summary. -/
theorem statistics_do_not_survive :
    ¬ ∀ (serde : SerdeJson) (env : BackupEnv) (job : BackupJob) (config : RemoteConfig)
      (t t' : RunsTable) (id : Int) (cmd : ResticCommand) (output : Output) (stats : BackupStats),
      ResticCommand.new env.os env.which config = .ok cmd →
      executeResticCommand env.spawn cmd job = .ok output → output.success = true →
      parseResticJsonOutput serde output.stdout = .ok stats →
      executeBackup serde env job config t = (t', .ok id) →
      ∃ r, t'.find id = some r ∧ r.Carries stats := by
  intro h
  obtain ⟨r, hr, hcarries⟩ := h .ofDirsLine (.printing dirsLine) (.plain 1 "blade")
    (.ofRepository "sftp:user@host:/path" "secret") .empty _ 1 _ _ _ rfl rfl rfl rfl rfl
  have hnull : r.dirsNew = none := by
    cases hr
    rfl
  rw [hcarries.dirsNew] at hnull
  cases hnull

end RBackup2
