import RBackup2.Backup.Output
import RBackup2.Backup.Restic
import RBackup2.Db.Queries

/-!
# One backup

`backup.rs`: `executeBackup` inserts the run record, builds and runs the restic command, and
closes the record on three of its exits.  What the environment decides — the two database calls,
the clocks, `PATH` and the spawned process — enters as a `BackupEnv`.

* `conclude` — the UPDATE that follows a command's result and what is returned after it;
  `executeBackup_eq` splits `executeBackup` into INSERT, command and UPDATE.
* `conclude_spec` — the UPDATE is consistent: it says `success` only of a process that exited
  with 0 and whose output has a summary, and otherwise `failed` with a non-empty text.
* `executeBackup_closes_row_iff` — the record is closed exactly when `ResticCommand::new`
  succeeds: its error exit is the one that forgets the record.
-/

set_option autoImplicit false

namespace RBackup2

/-- `std::process::Output`; the two streams are the texts `from_utf8_lossy` makes of them. -/
structure Output where
  /-- `ExitStatus::code`: nothing if the process was ended by a signal. -/
  code : Option Int
  stdout : String
  stderr : String
  deriving DecidableEq, Repr

/-- `ExitStatus::success`. -/
def Output.success (output : Output) : Bool := output.code == some 0

/-- `Command::output`: the result of running a process, or why it could not be run. -/
abbrev Spawn := Command → Except String Output

structure BackupEnv where
  os : TargetOs
  which : Which
  spawn : Spawn
  /-- The INSERT of the run and the server's `NOW()` in it. -/
  create : DbOutcome
  createdAt : DateTime
  /-- The UPDATE of the run and the client's `Utc::now()` for it. -/
  update : DbOutcome
  updatedAt : DateTime

/-- The arguments `update_run_with_failure` passes on. -/
def failureUpdate (errorMsg : String) (exitCode : Option Int) (stdout stderr : Option String) :
    RunUpdate where
  status := "failed"
  exitCode := exitCode
  errorMessage := some errorMsg
  filesNew := none
  filesChanged := none
  filesUnmodified := none
  dataAddedBytes := none
  snapshotId := none
  resticOutput := stdout
  resticErrors := stderr

/-- The arguments `update_run_with_success` passes on. -/
def successUpdate (exitCode : Int) (stats : BackupStats) (stdout : String)
    (stderr : Option String) : RunUpdate where
  status := "success"
  exitCode := some exitCode
  errorMessage := none
  filesNew := some stats.filesNew
  filesChanged := some stats.filesChanged
  filesUnmodified := some stats.filesUnmodified
  dataAddedBytes := some stats.dataAddedBytes
  snapshotId := some stats.snapshotId
  resticOutput := some stdout
  resticErrors := stderr

/-- `execute_restic_command`. -/
def executeResticCommand (spawn : Spawn) (resticCmd : ResticCommand) (job : BackupJob) :
    Except AppError Output :=
  match spawn (resticCmd.buildBackupCommand job) with
  | .ok output => .ok output
  | .error e => .error (.backup (.executionFailed ("Failed to execute restic: " ++ e)))

/-- `extract_error_message`. -/
def extractErrorMessage (stderr : String) : String :=
  if stderr ≠ "" then stderr else "Backup failed with no error message"

/-- `execute_backup`. -/
def executeBackup (serde : SerdeJson) (env : BackupEnv) (job : BackupJob) (config : RemoteConfig)
    (t : RunsTable) : RunsTable × Except AppError Int :=
  match createRun env.create env.createdAt job.id job.deviceId "manual" t with
  | (t, .error e) => (t, .error e)
  | (t, .ok runId) =>
    match ResticCommand.new env.os env.which config with
    | .error e => (t, .error e)
    | .ok resticCmd =>
      match executeResticCommand env.spawn resticCmd job with
      | .error e =>
        match updateRun env.update runId env.updatedAt
            (failureUpdate e.display none none none) t with
        | (t, .error e') => (t, .error e')
        | (t, .ok ()) => (t, .error e)
      | .ok output =>
        let exitCode := output.code.getD (-1)
        if output.success = false then
          let errorMsg := extractErrorMessage output.stderr
          match updateRun env.update runId env.updatedAt
              (failureUpdate errorMsg (some exitCode) (some output.stdout)
                (some output.stderr)) t with
          | (t, .error e) => (t, .error e)
          | (t, .ok ()) => (t, .error (.backup (.executionFailed errorMsg)))
        else
          match parseResticJsonOutput serde output.stdout with
          | .error e =>
            let errorMsg := "Failed to parse restic output: " ++ e.display
            match updateRun env.update runId env.updatedAt
                (failureUpdate errorMsg (some exitCode) (some output.stdout)
                  (some output.stderr)) t with
            | (t, .error e') => (t, .error e')
            | (t, .ok ()) => (t, .error e)
          | .ok stats =>
            let stderrOpt := if output.stderr ≠ "" then some output.stderr else none
            match updateRun env.update runId env.updatedAt
                (successUpdate exitCode stats output.stdout stderrOpt) t with
            | (t, .error e) => (t, .error e)
            | (t, .ok ()) => (t, .ok runId)

/-! ## The three parts of a backup -/

/-- The UPDATE that follows the command's result, and what `execute_backup` returns after it. -/
def conclude (serde : SerdeJson) (runId : Int) : Except AppError Output →
    RunUpdate × Except AppError Int
  | .error e => (failureUpdate e.display none none none, .error e)
  | .ok output =>
    let exitCode := output.code.getD (-1)
    if output.success = false then
      (failureUpdate (extractErrorMessage output.stderr) (some exitCode) (some output.stdout)
        (some output.stderr),
        .error (.backup (.executionFailed (extractErrorMessage output.stderr))))
    else
      match parseResticJsonOutput serde output.stdout with
      | .error e =>
        (failureUpdate ("Failed to parse restic output: " ++ e.display) (some exitCode)
          (some output.stdout) (some output.stderr), .error e)
      | .ok stats =>
        (successUpdate exitCode stats output.stdout
          (if output.stderr ≠ "" then some output.stderr else none), .ok runId)

/-- The UPDATE of a run followed by the return of `ret`. -/
def closeRun (o : DbOutcome) (now : DateTime) (runId : Int) (u : RunUpdate)
    (ret : Except AppError Int) (t : RunsTable) : RunsTable × Except AppError Int :=
  match updateRun o runId now u t with
  | (t, .error e) => (t, .error e)
  | (t, .ok ()) => (t, ret)

theorem executeBackup_eq (serde : SerdeJson) (env : BackupEnv) (job : BackupJob)
    (config : RemoteConfig) (t : RunsTable) :
    executeBackup serde env job config t =
      match createRun env.create env.createdAt job.id job.deviceId "manual" t with
      | (t, .error e) => (t, .error e)
      | (t, .ok runId) =>
        match ResticCommand.new env.os env.which config with
        | .error e => (t, .error e)
        | .ok resticCmd =>
          let p := conclude serde runId (executeResticCommand env.spawn resticCmd job)
          closeRun env.update env.updatedAt runId p.1 p.2 t := by
  unfold executeBackup
  split
  · rfl
  · split
    · rfl
    · cases executeResticCommand env.spawn _ job with
      | error e => rfl
      | ok output =>
        simp only [conclude]
        by_cases hs : output.success = false
        · simp only [if_pos hs, closeRun]
        · simp only [if_neg hs]
          cases parseResticJsonOutput serde output.stdout <;> rfl

/-- What an UPDATE written by `execute_backup` says about the execution it closes. -/
inductive Consistent (serde : SerdeJson) (output : Option Output) (u : RunUpdate) : Prop where
  | failed (msg : String) (hstatus : u.status = "failed") (hmsg : u.errorMessage = some msg)
      (hne : msg ≠ "") (hsnap : u.snapshotId = none)
  | success (out : Output) (summary : ResticSummary) (hstatus : u.status = "success")
      (hexit : u.exitCode = some 0) (hmsg : u.errorMessage = none) (hout : output = some out)
      (hsum : findSummary serde (Text.lines out.stdout) = some summary)
      (hsome : summary.snapshotId.isSome) (hsnap : u.snapshotId = summary.snapshotId)

theorem extractErrorMessage_ne_empty (stderr : String) : extractErrorMessage stderr ≠ "" := by
  unfold extractErrorMessage
  split
  · assumption
  · decide

/-- The snapshot the parser reports is that of the summary it selected. -/
theorem parse_snapshot {serde : SerdeJson} {stdout : String} {stats : BackupStats}
    (h : parseResticJsonOutput serde stdout = .ok stats) :
    ∃ summary, findSummary serde (Text.lines stdout) = some summary ∧
      summary.snapshotId = some stats.snapshotId := by
  unfold parseResticJsonOutput at h
  split at h
  · cases h
  · rename_i summary hsum
    split at h
    · cases h
    · rename_i snapshotId hsnap
      cases h
      exact ⟨summary, hsum, hsnap⟩

theorem conclude_spec (serde : SerdeJson) (runId : Int) (r : Except AppError Output) :
    Consistent serde r.toOption (conclude serde runId r).1 := by
  cases r with
  | error e => exact .failed e.display rfl rfl e.display_ne_empty rfl
  | ok output =>
    simp only [conclude]
    split
    · exact .failed _ rfl rfl (extractErrorMessage_ne_empty _) rfl
    · rename_i hs
      have hcode : output.code = some 0 := by simpa [Output.success] using hs
      split
      · exact .failed _ rfl rfl (append_ne_empty (by decide) _) rfl
      · rename_i stats hparse
        obtain ⟨summary, hsum, hsnap⟩ := parse_snapshot hparse
        exact .success output summary rfl (by simp [successUpdate, hcode]) rfl rfl hsum
          (by simp [hsnap]) (by simp [successUpdate, hsnap])

/-! ## The record is closed, or forgotten -/

/-- A run record that no longer counts as running. -/
def Run.closed (r : Run) : Prop := (r.status = "success" ∨ r.status = "failed") ∧ r.endTime.isSome

theorem Consistent.closed {serde : SerdeJson} {output : Option Output} {u : RunUpdate}
    (h : Consistent serde output u) (r : Run) (now : DateTime) : (r.finish now u).closed := by
  cases h with
  | failed msg hstatus => exact ⟨.inr hstatus, rfl⟩
  | success out summary hstatus => exact ⟨.inl hstatus, rfl⟩

/-- The record of a backup that finds restic and whose two statements succeed. -/
theorem executeBackup_row {serde : SerdeJson} {env : BackupEnv} {job : BackupJob}
    {config : RemoteConfig} {t : RunsTable} {cmd : ResticCommand} (hc : env.create = .done)
    (hu : env.update = .done) (hcmd : ResticCommand.new env.os env.which config = .ok cmd) :
    (executeBackup serde env job config t).1.find t.nextId =
      some ((newRun t.nextId job.id job.deviceId "manual" env.createdAt).finish env.updatedAt
        (conclude serde t.nextId (executeResticCommand env.spawn cmd job)).1) := by
  have hnew := insert_find_new t job.id job.deviceId "manual" env.createdAt
  rw [executeBackup_eq]
  simp only [createRun, hc, DbOutcome.applied, DbOutcome.result, if_true, hcmd, closeRun, updateRun,
    hu]
  exact update_find_self hnew _ _

/-- **Exactly when `execute_backup` closes the record it created.** -/
theorem executeBackup_closes_row_iff (serde : SerdeJson) (env : BackupEnv) (job : BackupJob)
    (config : RemoteConfig) (t : RunsTable) (hc : env.create = .done) (hu : env.update = .done) :
    (∃ r, (executeBackup serde env job config t).1.find t.nextId = some r ∧ r.closed) ↔
      ResticAvailable env.os env.which config := by
  rw [← ResticCommand.new_ok_iff]
  cases hcmd : ResticCommand.new env.os env.which config with
  | error e =>
    -- the early return: the row is as the INSERT left it
    have hnew := insert_find_new t job.id job.deviceId "manual" env.createdAt
    rw [executeBackup_eq]
    simp only [createRun, hc, DbOutcome.applied, DbOutcome.result, if_true, hcmd]
    simp [hnew, Run.closed, newRun]
  | ok cmd =>
    have hcons := conclude_spec serde t.nextId (executeResticCommand env.spawn cmd job)
    exact ⟨fun _ => ⟨cmd, rfl⟩, fun _ => ⟨_, executeBackup_row hc hu hcmd, hcons.closed _ _⟩⟩

/-- A backup whose database calls succeed and whose process exits with 1, where `PATH` holds the
    given programs. -/
def BackupEnv.failing (programs : List String) : BackupEnv where
  os := .other
  which := fun name => if name ∈ programs then .ok ("/usr/bin/" ++ name) else .error "not found"
  spawn := fun _ => .ok ⟨some 1, "", "Fatal: unable to open config file"⟩
  create := .done
  createdAt := seconds 1735689600
  update := .done
  updatedAt := seconds 1735689660

/-- A decoder no line satisfies. -/
def SerdeJson.rejecting : SerdeJson where
  messageType := fun _ => .error "expected value at line 1 column 1"
  summary := fun _ => .error "expected value at line 1 column 1"

/-- With restic in `PATH` the record of a failing backup is closed. -/
theorem executeBackup_closes_row_iff_failing :
    let env := BackupEnv.failing ["restic"]
    let config := RemoteConfig.ofRepository "sftp:user@host:/path" "secret"
    ∃ r, (executeBackup .rejecting env (.plain 1 "blade") config .empty).1.find 1 = some r ∧
      r.closed := by
  intro env config
  have havailable : ResticAvailable env.os env.which config := ⟨rfl, rfl, "/usr/bin/restic", rfl⟩
  exact (executeBackup_closes_row_iff .rejecting env (.plain 1 "blade") config .empty rfl rfl).2
    havailable

/-- Without restic in `PATH` the record created by the backup stays `running`. -/
theorem executeBackup_leaves_row_running :
    ¬ ∀ (serde : SerdeJson) (env : BackupEnv) (job : BackupJob) (config : RemoteConfig)
      (t : RunsTable), env.create = .done → env.update = .done →
        ∃ r, (executeBackup serde env job config t).1.find t.nextId = some r ∧ r.closed := by
  intro h
  obtain ⟨r, hr, hclosed⟩ := h .rejecting (.failing []) (.plain 1 "blade")
    (.ofRepository "sftp:user@host:/path" "secret") .empty rfl rfl
  have hrow : (executeBackup .rejecting (.failing []) (.plain 1 "blade")
      (.ofRepository "sftp:user@host:/path" "secret") .empty).1.find 1 =
        some (newRun 1 1 "blade" "manual" (seconds 1735689600)) := by decide
  cases hrow.symm.trans hr
  rcases hclosed.1 with hs | hs <;> exact absurd hs (by decide)

end RBackup2
