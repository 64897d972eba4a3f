import RBackup2.Backup.Runs
import RBackup2.Db.Integrity

/-!
# Backups on a server

The calls of `execute_backup` write to the table `runs` of a server that checks every statement,
while anybody else inserts, updates and deletes other rows, and deletes runs.

* `Row.toRun` — a row of `runs` as the struct it is decoded into; `toRun_newRow`, `toRun_finish` —
  the INSERT and the UPDATE of a run, on rows and on structs.
* `BackupCall.onServer` — a step of a call, with the statement the server executes.
* `BackupCall.onServer_simulates` — it is a step of the call on the table of structs.
* `server_shows_history` — the records of the server are those of a run of the calls in which
  nothing is ever deleted, less the records that were.
-/

set_option autoImplicit false

namespace RBackup2

open Sql Transition

/-! ## Rows and structs -/

def Value.toInt : Value → Option Int
  | .int n => some n
  | _ => none

def Value.toText : Value → Option String
  | .text s => some s
  | _ => none

def Value.toTimestamp : Value → Option DateTime
  | .timestamp t => some t
  | _ => none

def Value.toUuid : Value → Option Uuid
  | .uuid u => some u
  | _ => none

/-- The struct a row of `runs` is decoded into. -/
def Row.toRun (r : Row) : Run where
  id := (Value.toInt (r "id")).getD 0
  jobId := (Value.toUuid (r "job_id")).getD 0
  deviceId := (Value.toText (r "device_id")).getD ""
  startTime := (Value.toTimestamp (r "start_time")).getD 0
  endTime := Value.toTimestamp (r "end_time")
  status := (Value.toText (r "status")).getD ""
  exitCode := Value.toInt (r "exit_code")
  errorMessage := Value.toText (r "error_message")
  filesNew := Value.toInt (r "files_new")
  filesChanged := Value.toInt (r "files_changed")
  filesUnmodified := Value.toInt (r "files_unmodified")
  dirsNew := Value.toInt (r "dirs_new")
  dirsChanged := Value.toInt (r "dirs_changed")
  dirsUnmodified := Value.toInt (r "dirs_unmodified")
  dataAddedBytes := Value.toInt (r "data_added_bytes")
  totalFilesProcessed := Value.toInt (r "total_files_processed")
  totalBytesProcessed := Value.toInt (r "total_bytes_processed")
  durationSeconds := Value.toInt (r "duration_seconds")
  snapshotId := Value.toText (r "snapshot_id")
  resticOutput := Value.toText (r "restic_output")
  resticErrors := Value.toText (r "restic_errors")
  triggeredBy := (Value.toText (r "triggered_by")).getD ""

@[simp] theorem toInt_orNull (o : Option Int) : Value.toInt (orNull .int o) = o := by
  cases o <;> rfl

@[simp] theorem toText_orNull (o : Option String) : Value.toText (orNull .text o) = o := by
  cases o <;> rfl

/-- The INSERT of `create_run`, on the row and on the struct. -/
theorem toRun_newRow (now : DateTime) (id : Int) (jobId : Uuid) (deviceId triggeredBy : String) :
    Row.toRun (Table.runs.newRow now
      [("id", .int id), ("job_id", .uuid jobId), ("device_id", .text deviceId),
        ("start_time", .timestamp now), ("status", .text "running"),
        ("triggered_by", .text triggeredBy)]) =
      newRun id jobId deviceId triggeredBy now := rfl

theorem toRun_id {r : Row} (hr : Admits runsTable r) : r "id" = .int (Row.toRun r).id := by
  obtain ⟨n, hn⟩ : ∃ n, r "id" = .int n :=
    Value.int_of_hasType (hr (notNull "id" .integer) (by decide)).1 (ne_null hr (by decide))
  rw [hn]
  simp [Row.toRun, hn, Value.toInt]

/-- The SET list of `update_run`. -/
def runValues (endTime : DateTime) (u : RunUpdate) (r : Row) : List (String × Value) :=
  [("end_time", .timestamp (timestamptz endTime)), ("status", .text u.status),
    ("exit_code", orNull .int u.exitCode), ("error_message", orNull .text u.errorMessage),
    ("files_new", orNull .int u.filesNew), ("files_changed", orNull .int u.filesChanged),
    ("files_unmodified", orNull .int u.filesUnmodified),
    ("data_added_bytes", orNull .int u.dataAddedBytes),
    ("snapshot_id", orNull .text u.snapshotId), ("restic_output", orNull .text u.resticOutput),
    ("restic_errors", orNull .text u.resticErrors),
    ("duration_seconds", durationSeconds endTime r)]

/-- The UPDATE of `update_run`, on the row and on the struct. -/
theorem toRun_finish {r : Row} (hr : Admits runsTable r) (endTime : DateTime) (u : RunUpdate) :
    Row.toRun (r.assign (runValues endTime u r)) = (Row.toRun r).finish endTime u := by
  have hstart : ∃ t, r "start_time" = .timestamp t :=
    Value.timestamp_of_hasType (hr (notNull "start_time" .timestamptz) (by decide)).1
      (ne_null hr (by decide))
  obtain ⟨t, ht⟩ := hstart
  have hduration : Value.toInt (durationSeconds endTime r) =
      some (extractEpoch (timestamptz endTime - (Row.toRun r).startTime)) := by
    simp [durationSeconds, Row.toRun, ht, Value.toInt, Value.toTimestamp]
  have hassign : Row.toRun (r.assign (runValues endTime u r)) =
      { Row.toRun r with
        endTime := some (timestamptz endTime)
        status := u.status
        exitCode := Value.toInt (orNull .int u.exitCode)
        errorMessage := Value.toText (orNull .text u.errorMessage)
        filesNew := Value.toInt (orNull .int u.filesNew)
        filesChanged := Value.toInt (orNull .int u.filesChanged)
        filesUnmodified := Value.toInt (orNull .int u.filesUnmodified)
        dataAddedBytes := Value.toInt (orNull .int u.dataAddedBytes)
        snapshotId := Value.toText (orNull .text u.snapshotId)
        resticOutput := Value.toText (orNull .text u.resticOutput)
        resticErrors := Value.toText (orNull .text u.resticErrors)
        durationSeconds := Value.toInt (durationSeconds endTime r) } := rfl
  rw [hassign, hduration]
  simp only [toInt_orNull, toText_orNull]
  rfl

/-! ## Calls on the server -/

/-- A statement of a client and what the client is told.  It takes effect only if the server
    accepts it. -/
def Server.call {α : Type} (s : Server) (o : DbOutcome) (q : ClientStatement) (now : DateTime)
    (a : α) : Option (Server × Except AppError α) :=
  if o.applied then (s.execute (.client q now)).map fun s' => (s', o.result a)
  else some (s, o.result a)

/-- A step of `execute_backup`; the UPDATE does not look at the server's clock. -/
def BackupCall.onServer (serde : SerdeJson) (s : Server) (c : BackupCall) :
    BackupEvent → Option (Server × BackupCall)
  | .createRun o now =>
    match c.pc with
    | .create =>
      (s.call o (.createRun c.job.id c.job.deviceId "manual") now s.nextRunId).map fun p =>
        (p.1, match p.2 with
          | .error e => { c with pc := .returned (.error e) }
          | .ok runId => { c with runId := some runId, pc := .restic runId })
    | _ => none
  | .runRestic os which spawn =>
    match c.pc with
    | .restic runId =>
      match ResticCommand.new os which c.config with
      | .error e => some (s, { c with pc := .returned (.error e) })
      | .ok resticCmd =>
        let r := executeResticCommand spawn resticCmd c.job
        let p := conclude serde runId r
        some (s, { c with output := r.toOption, pc := .update runId p.1 p.2 })
    | _ => none
  | .updateRun o now =>
    match c.pc with
    | .update runId u ret =>
      (s.call o (.updateRun runId now u) now ()).map fun p =>
        (p.1, { c with pc := .returned (match p.2 with
          | .error e => .error e
          | .ok () => ret) })
    | _ => none

/-- The action may add or change a row of `runs`. -/
def ServerAction.writesRuns : ServerAction → Bool
  | .client (.createRun _ _ _) _ => true
  | .client (.updateRun _ _ _) _ => true
  | .other (.insert .runs _) => true
  | .other (.update .runs _ _) => true
  | _ => false

/-- Calls of `execute_backup` on one server. -/
abbrev ServerCalls := Interleaving Server BackupCall

inductive CallsAction where
  | call (i : Nat) (ev : BackupEvent)
  /-- Anything else that happens on the server. -/
  | other (a : ServerAction)

def ServerCalls.step (serde : SerdeJson) (s : ServerCalls) : CallsAction → Option ServerCalls
  | .call i ev => Interleaving.step (fun sv c => c.onServer serde sv) s (i, ev)
  | .other a => (s.shared.step a).map fun sv => ⟨sv, s.parts⟩

/-- The steps of the calls. -/
def CallsAction.event : CallsAction → Option (Nat × BackupEvent)
  | .call i ev => some (i, ev)
  | .other _ => none

/-! ## What the statements do to the records -/

/-- The records of the table `runs`. -/
def Server.records (s : Server) : List Run := (s.contents .runs).map Row.toRun

theorem records_createRun {s s' : Server} {now : DateTime} {jobId : Uuid}
    {deviceId triggeredBy : String}
    (h : s.execute (.client (.createRun jobId deviceId triggeredBy) now) = some s') :
    s'.records = s.records ++ [newRun s.nextRunId jobId deviceId triggeredBy now] ∧
      s'.nextRunId = s.nextRunId + 1 := by
  obtain ⟨c, hc, rfl⟩ := Option.map_eq_some_iff.1 h
  obtain ⟨-, rfl⟩ := Schema.execute_eq_some_iff.1 (Query.run_eq_some hc).2
  refine ⟨?_, rfl⟩
  simp only [Server.records, ClientStatement.query, Query.createRun, Schema.apply,
    Function.update_self, List.map_append, List.map_cons, List.map_nil, toRun_newRow]

theorem records_updateRun {s s' : Server} (hs : schema.Valid s.contents) {now endTime : DateTime}
    {runId : Int} {u : RunUpdate}
    (h : s.execute (.client (.updateRun runId endTime u) now) = some s') :
    s'.records = s.records.map (fun r => if r.id = runId then r.finish endTime u else r) ∧
      s'.nextRunId = s.nextRunId := by
  obtain ⟨c, hc, rfl⟩ := Option.map_eq_some_iff.1 h
  obtain ⟨-, rfl⟩ := Schema.execute_eq_some_iff.1 (Query.run_eq_some hc).2
  have hrow : ∀ r ∈ s.contents .runs,
      Row.toRun (if r "id" == .int runId then r.assign (runValues endTime u r) else r) =
        if (Row.toRun r).id = runId then (Row.toRun r).finish endTime u else Row.toRun r := by
    intro r hr
    have hadm := (hs.fits .runs r hr).1
    rw [toRun_id hadm]
    by_cases hrun : (Row.toRun r).id = runId
    · rw [if_pos hrun, if_pos (by simp [hrun]), toRun_finish hadm]
    · rw [if_neg hrun, if_neg (by simp [hrun])]
  refine ⟨?_, Int.add_zero _⟩
  simp only [Server.records, ClientStatement.query, Query.updateRun, Schema.apply,
    Function.update_self, updateRows, List.map_map]
  exact List.map_congr_left hrow

/-- A statement on other tables leaves the runs alone, unless it is a DELETE. -/
theorem runs_other {s s' : Server} {a : ServerAction} (ha : a.writesRuns = false)
    (h : s.execute a = some s') : s'.nextRunId = s.nextRunId ∧
      (s'.contents .runs = s.contents .runs ∨
        ∃ t p, a = .other (.delete t p) ∧ s'.contents = schema.delete t p s.contents) := by
  have hkeep : ∀ {t : Table} {rows : List Row}, t ≠ .runs →
      Function.update s.contents t rows .runs = s.contents .runs :=
    fun ht => Function.update_of_ne ht.symm _ _
  obtain ⟨q, now, rfl, hrun, hid⟩ | ⟨st, rfl, hexec, hid⟩ := Server.execute_eq_some h
  · obtain ⟨-, heq⟩ := Schema.execute_eq_some_iff.1 (Query.run_eq_some hrun).2
    rw [← heq]
    cases q with
    | upsertDevice deviceId name platform hostname =>
      refine ⟨by rw [hid]; exact Int.add_zero _, .inl ?_⟩
      simp only [ClientStatement.query, Query.upsertDevice, upsertStatement]
      split <;> exact hkeep (by decide)
    | updateDeviceHeartbeat =>
      exact ⟨by rw [hid]; exact Int.add_zero _, .inl (hkeep (by decide))⟩
    | updateScheduleLastRun =>
      exact ⟨by rw [hid]; exact Int.add_zero _, .inl (hkeep (by decide))⟩
    | createRun | updateRun => cases ha
  · obtain ⟨-, heq⟩ := Schema.execute_eq_some_iff.1 hexec
    refine ⟨hid, ?_⟩
    rw [← heq]
    cases st with
    | insert t row => exact .inl (hkeep (by rintro rfl; cases ha))
    | update t p values => exact .inl (hkeep (by rintro rfl; cases ha))
    | delete t p => exact .inr ⟨t, p, rfl, rfl⟩

/-! ## What the records show -/

/-- The records of the server are rows of the table, in their order. -/
structure Shows (s : Server) (t : RunsTable) : Prop where
  valid : schema.Valid s.contents
  records : s.records.Sublist t.rows
  nextId : s.nextRunId = t.nextId

theorem Shows.createRun {s s' : Server} {t : RunsTable} (hs : Shows s t) {now : DateTime}
    {jobId : Uuid} {deviceId triggeredBy : String}
    (h : s.execute (.client (.createRun jobId deviceId triggeredBy) now) = some s') :
    Shows s' (t.insert jobId deviceId triggeredBy now) := by
  obtain ⟨hrecords, hid⟩ := records_createRun h
  refine ⟨Server.execute_valid hs.valid h, ?_, ?_⟩
  · rw [hrecords, hs.nextId]
    exact hs.records.append (List.Sublist.refl _)
  · rw [hid, hs.nextId]
    rfl

theorem Shows.updateRun {s s' : Server} {t : RunsTable} (hs : Shows s t) {now endTime : DateTime}
    {runId : Int} {u : RunUpdate}
    (h : s.execute (.client (.updateRun runId endTime u) now) = some s') :
    Shows s' (t.update runId endTime u) := by
  obtain ⟨hrecords, hid⟩ := records_updateRun hs.valid h
  refine ⟨Server.execute_valid hs.valid h, ?_, hid.trans hs.nextId⟩
  rw [hrecords]
  exact hs.records.map _

theorem Shows.other {s s' : Server} {t : RunsTable} (hs : Shows s t) {a : ServerAction}
    (ha : a.writesRuns = false) (h : s.step a = some s') : Shows s' t := by
  have hvalid := Server.step_valid hs.valid h
  rcases Server.step_eq h with rfl | hex
  · exact hs
  · obtain ⟨hid, hsame | ⟨u, p, -, hdelete⟩⟩ := runs_other ha hex
    · refine ⟨hvalid, ?_, hid.trans hs.nextId⟩
      rw [Server.records, hsame]
      exact hs.records
    · refine ⟨hvalid, ?_, hid.trans hs.nextId⟩
      rw [Server.records, hdelete]
      exact ((Schema.delete_sublist u p s.contents .runs).map _).trans hs.records

/-- What a statement comes to. -/
theorem Server.call_cases {α : Type} {s s' : Server} {o : DbOutcome} {q : ClientStatement}
    {now : DateTime} {a : α} {r : Except AppError α} (h : s.call o q now a = some (s', r)) :
    r = o.result a ∧ ((o.applied = true ∧ s.execute (.client q now) = some s') ∨
      (o.applied = false ∧ s' = s)) := by
  unfold Server.call at h
  split at h
  · rename_i ho
    obtain ⟨s₁, hs₁, heq⟩ := Option.map_eq_some_iff.1 h
    cases heq
    exact ⟨rfl, .inl ⟨ho, hs₁⟩⟩
  · rename_i ho
    cases h
    exact ⟨rfl, .inr ⟨by simpa using ho, rfl⟩⟩

/-- **Everything a step of a call on the server can do.** -/
theorem BackupCall.onServer_cases {serde : SerdeJson} {s s' : Server} {c c' : BackupCall}
    {ev : BackupEvent} (h : c.onServer serde s ev = some (s', c')) :
    (∃ o now, ev = .createRun o now ∧ c.pc = .create ∧
      ((o.applied = true ∧
          s.execute (.client (.createRun c.job.id c.job.deviceId "manual") now) = some s') ∨
        (o.applied = false ∧ s' = s)) ∧
      ((o = .done ∧ c' = { c with runId := some s.nextRunId, pc := .restic s.nextRunId }) ∨
        ∃ e, c' = { c with pc := .returned (.error e) })) ∨
    (∃ os which spawn runId, ev = .runRestic os which spawn ∧ c.pc = .restic runId ∧ s' = s ∧
      ((∃ e, ResticCommand.new os which c.config = .error e ∧
          c' = { c with pc := .returned (.error e) }) ∨
        ∃ cmd r, ResticCommand.new os which c.config = .ok cmd ∧
          r = executeResticCommand spawn cmd c.job ∧ c' = { c with
            output := Except.toOption r
            pc := .update runId (conclude serde runId r).1 (conclude serde runId r).2 })) ∨
    (∃ o now runId u ret ret', ev = .updateRun o now ∧ c.pc = .update runId u ret ∧
      ((o.applied = true ∧ s.execute (.client (.updateRun runId now u) now) = some s') ∨
        (o.applied = false ∧ s' = s)) ∧ c' = { c with pc := .returned ret' }) := by
  cases ev with
  | createRun o now =>
    left
    simp only [BackupCall.onServer] at h
    split at h
    · rename_i hpc
      obtain ⟨⟨s₁, r⟩, hcall, heq⟩ := Option.map_eq_some_iff.1 h
      cases heq
      obtain ⟨rfl, happlied⟩ := Server.call_cases hcall
      refine ⟨o, now, rfl, hpc, happlied, ?_⟩
      cases o with
      | done => exact .inl ⟨rfl, rfl⟩
      | failed err | lost err => exact .inr ⟨_, rfl⟩
    · cases h
  | runRestic os which spawn =>
    right; left
    simp only [BackupCall.onServer] at h
    split at h
    · rename_i runId hpc
      refine ⟨os, which, spawn, runId, rfl, hpc, ?_⟩
      split at h
      · rename_i e hcmd
        cases h
        exact ⟨rfl, .inl ⟨e, hcmd, rfl⟩⟩
      · rename_i cmd hcmd
        cases h
        exact ⟨rfl, .inr ⟨cmd, _, hcmd, rfl, rfl⟩⟩
    · cases h
  | updateRun o now =>
    right; right
    simp only [BackupCall.onServer] at h
    split at h
    · rename_i runId u ret hpc
      obtain ⟨⟨s₁, r⟩, hcall, heq⟩ := Option.map_eq_some_iff.1 h
      cases heq
      exact ⟨o, now, runId, u, ret, _, rfl, hpc, (Server.call_cases hcall).2, rfl⟩
    · cases h

theorem BackupCall.onServer_valid {serde : SerdeJson} {s s' : Server} {c c' : BackupCall}
    {ev : BackupEvent} (hs : schema.Valid s.contents) (h : c.onServer serde s ev = some (s', c')) :
    schema.Valid s'.contents := by
  obtain ⟨o, now, -, -, ⟨-, hexec⟩ | ⟨-, rfl⟩, -⟩ | ⟨os, which, spawn, runId, -, -, rfl, -⟩ |
    ⟨o, now, runId, u, ret, ret', -, -, ⟨-, hexec⟩ | ⟨-, rfl⟩, -⟩ :=
    BackupCall.onServer_cases h
  case inl.inr | inr.inl | inr.inr.inr => exact hs
  all_goals exact Server.execute_valid hs hexec

/-- **A call on the server takes the step it takes on the table.** -/
theorem BackupCall.onServer_simulates {serde : SerdeJson} {s s' : Server} {t : RunsTable}
    {c c' : BackupCall} {ev : BackupEvent} (hs : Shows s t)
    (h : c.onServer serde s ev = some (s', c')) :
    ∃ t', c.step serde t ev = some (t', c') ∧ Shows s' t' := by
  cases ev with
  | createRun o now =>
    simp only [BackupCall.onServer] at h
    split at h
    · rename_i hpc
      obtain ⟨⟨s₁, r⟩, hcall, heq⟩ := Option.map_eq_some_iff.1 h
      cases heq
      obtain ⟨rfl, ⟨ho, hexec⟩ | ⟨ho, rfl⟩⟩ := Server.call_cases hcall
      · refine ⟨t.insert c.job.id c.job.deviceId "manual" now, ?_, hs.createRun hexec⟩
        simp only [BackupCall.step, hpc, createRun, ho, if_true, hs.nextId]
        cases o <;> rfl
      · refine ⟨t, ?_, hs⟩
        simp only [BackupCall.step, hpc, createRun, ho, Bool.false_eq_true, if_false]
        cases o with
        | failed err => rfl
        | done | lost => cases ho
    · cases h
  | runRestic os which spawn =>
    simp only [BackupCall.onServer] at h
    split at h
    · rename_i runId hpc
      split at h
      · rename_i e hcmd
        cases h
        exact ⟨t, by simp only [BackupCall.step, hpc, hcmd], hs⟩
      · rename_i cmd hcmd
        cases h
        exact ⟨t, by simp only [BackupCall.step, hpc, hcmd], hs⟩
    · cases h
  | updateRun o now =>
    simp only [BackupCall.onServer] at h
    split at h
    · rename_i runId u ret hpc
      obtain ⟨⟨s₁, r⟩, hcall, heq⟩ := Option.map_eq_some_iff.1 h
      cases heq
      obtain ⟨rfl, ⟨ho, hexec⟩ | ⟨ho, rfl⟩⟩ := Server.call_cases hcall
      · refine ⟨t.update runId now u, ?_, hs.updateRun hexec⟩
        simp only [BackupCall.step, hpc, closeRun, updateRun, ho, if_true]
        cases o <;> rfl
      · refine ⟨t, ?_, hs⟩
        simp only [BackupCall.step, hpc, closeRun, updateRun, ho, Bool.false_eq_true, if_false]
        cases o with
        | failed err => rfl
        | done | lost => cases ho
    · cases h

theorem ServerCalls.step_simulates {serde : SerdeJson} {s s' : ServerCalls} {t : RunsTable}
    {a : CallsAction} (hs : Shows s.shared t)
    (ha : ∀ sa, a = .other sa → sa.writesRuns = false) (h : s.step serde a = some s') :
    ∃ t', exec (Calls.step serde) ⟨t, s.parts⟩ a.event.toList = some ⟨t', s'.parts⟩ ∧
      Shows s'.shared t' := by
  cases a with
  | call i ev =>
    obtain ⟨c, sv, c', hi, hstep, rfl⟩ := Interleaving.step_eq h
    obtain ⟨t', ht', hshows⟩ := BackupCall.onServer_simulates hs hstep
    refine ⟨t', exec_cons.2 ⟨⟨t', s.parts.set i c'⟩, ?_, rfl⟩, hshows⟩
    have hi' : s.parts[i]? = some c := hi
    simp only [Calls.step, Interleaving.step, hi', ht', Option.map_some]
  | other sa =>
    simp only [ServerCalls.step] at h
    obtain ⟨sv, hsv, rfl⟩ := Option.map_eq_some_iff.1 h
    exact ⟨t, rfl, hs.other (ha sa rfl) hsv⟩

/-- The run of the calls on a table from which nothing is deleted. -/
theorem ServerCalls.exec_simulates (serde : SerdeJson) {s s' : ServerCalls} {t : RunsTable}
    (hs : Shows s.shared t) {as : List CallsAction}
    (hothers : ∀ a, .other a ∈ as → a.writesRuns = false)
    (h : exec (ServerCalls.step serde) s as = some s') :
    ∃ t', exec (Calls.step serde) ⟨t, s.parts⟩ (as.filterMap CallsAction.event) =
      some ⟨t', s'.parts⟩ ∧ Shows s'.shared t' := by
  have hsim : ∃ c, exec (Calls.step serde) ⟨t, s.parts⟩ (as.filterMap CallsAction.event) =
      some c ∧ Shows s'.shared c.shared ∧ c.parts = s'.parts := by
    refine exec_stuttering (G := fun a => ∀ sa, a = .other sa → sa.writesRuns = false)
      (R := fun (s : ServerCalls) (c : Calls) => Shows s.shared c.shared ∧ c.parts = s.parts) ?_
      ⟨hs, rfl⟩ (fun a ha sa hsa => hothers sa (hsa ▸ ha)) h
    rintro s ⟨t, parts⟩ a s' ⟨hshows, rfl⟩ hother hstep
    obtain ⟨t', ht', hshows'⟩ := ServerCalls.step_simulates hshows hother hstep
    exact ⟨⟨t', s'.parts⟩, ht', hshows', rfl⟩
  obtain ⟨⟨t', parts⟩, ht', hshows, rfl⟩ := hsim
  exact ⟨t', ht', hshows⟩

/-! ## The history -/

/-- The calls before their first step. -/
def ServerCalls.init (s : Server) (args : List (BackupJob × RemoteConfig)) : ServerCalls :=
  ⟨s, args.map fun a => .start a.1 a.2⟩

/-- The table that has the records of the server. -/
def Server.runsTable (s : Server) (hs : schema.Valid s.contents)
    (hids : ∀ r ∈ s.records, r.id < s.nextRunId) : RunsTable where
  rows := s.records
  nextId := s.nextRunId
  ids_lt := hids
  ids_nodup := by
    have hkeys : ((s.contents .runs).map fun r => r "id").Nodup :=
      (nodup_filterMap_key (t := .runs) fun r hr => (hs.fits .runs r hr).1).1
        (hs.distinct .runs _ List.mem_cons_self)
    have heq : ((s.contents .runs).map fun r => r "id") =
        (s.records.map Run.id).map Value.int := by
      rw [Server.records, List.map_map, List.map_map]
      exact List.map_congr_left fun r hr => toRun_id (hs.fits .runs r hr).1
    rw [heq] at hkeys
    exact hkeys.of_map _

/-- **The records on the server are what is left of the history of the calls.**  Whatever clients
    and anybody else do to the other tables, and whatever runs are deleted, the calls take the
    steps they take on a table from which nothing is deleted; the records of the server are rows
    of that table, column by column, and those the calls have made agree with their status and
    with the execution that made them. -/
theorem server_shows_history (serde : SerdeJson) {s : Server} (hs : schema.Valid s.contents)
    (hids : ∀ r ∈ s.records, r.id < s.nextRunId) {args : List (BackupJob × RemoteConfig)}
    {as : List CallsAction} (hothers : ∀ a, .other a ∈ as → a.writesRuns = false)
    {s' : ServerCalls} (h : exec (ServerCalls.step serde) (.init s args) as = some s') :
    (∃ t, exec (Calls.step serde) (.init (s.runsTable hs hids) args)
        (as.filterMap CallsAction.event) = some ⟨t, s'.parts⟩ ∧
      s'.shared.records.Sublist t.rows ∧ s'.shared.nextRunId = t.nextId) ∧
    ∀ r ∈ s'.shared.records, s.nextRunId ≤ r.id → RowOk serde (fun i => s'.parts[i]?) r := by
  have hshows : Shows (ServerCalls.init s args).shared (s.runsTable hs hids) :=
    ⟨hs, List.Sublist.refl _, rfl⟩
  obtain ⟨t, hcalls, hshows'⟩ := ServerCalls.exec_simulates serde hshows hothers h
  refine ⟨⟨t, hcalls, hshows'.records, hshows'.nextId⟩, fun r hr hid => ?_⟩
  have hinv : Calls.Inv serde s.nextRunId ⟨t, s'.parts⟩ :=
    exec_invariant (fun _ _ _ hI hstep => hI.step hstep)
      (Calls.Inv.init serde (s.runsTable hs hids) args) hcalls
  exact hinv.rows r.id r (t.find_of_mem (hshows'.records.subset hr)) hid

/-- A server with a device and a job. -/
def Server.sample : Server :=
  Server.after ⟨(Database.migrated 0).contents, 1⟩ (ServerAction.sample.take 2)

theorem Server.sample_valid : schema.Valid Server.sample.contents :=
  Server.valid_of_exec (s := ⟨(Database.migrated 0).contents, 1⟩)
    (Server.valid_of_admitted (Database.migrated_admitted 0)) (Server.exec_after _ _)

/-- A backup, and the job deleted after it was recorded. -/
def sampleBackup : List CallsAction :=
  [.call 0 (.createRun .done 0),
    .call 0 (.runRestic .other (fun name => .ok ("/usr/bin/" ++ name))
      fun _ => .ok ⟨some 0, snapshotLine, ""⟩),
    .call 0 (.updateRun .done 60)]

def sampleArgs : List (BackupJob × RemoteConfig) :=
  [(.plain 1 "blade", .ofRepository "sftp:h:/r" "secret")]

theorem server_shows_history_backup :
    ∃ s, exec (ServerCalls.step .ofSnapshotLine) (.init .sample sampleArgs) sampleBackup =
        some s ∧ s.shared.records.map Run.status = ["success"] ∧
      ∀ r ∈ s.shared.records, Server.sample.nextRunId ≤ r.id →
        RowOk .ofSnapshotLine (fun i => s.parts[i]?) r := by
  have hsome : (exec (ServerCalls.step .ofSnapshotLine) (.init .sample sampleArgs)
      sampleBackup).isSome = true := by decide +kernel
  have hend : ∀ s ∈ exec (ServerCalls.step .ofSnapshotLine) (.init .sample sampleArgs)
      sampleBackup, s.shared.records.map Run.status = ["success"] := by decide +kernel
  obtain ⟨s, h⟩ := Option.isSome_iff_exists.1 hsome
  refine ⟨s, h, hend s h, (server_shows_history .ofSnapshotLine Server.sample_valid
    (by decide +kernel) (fun a ha => ?_) h).2⟩
  simp [sampleBackup] at ha

end RBackup2
