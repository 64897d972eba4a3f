import RBackup2.Backup.Execute
import RBackup2.Db.Schema
import RBackup2.Lib.Relational
import RBackup2.Lib.Transition

/-!
# What is written to the database

The statements of `db/queries.rs` that write, on whole rows and with the checks of the server, next
to the statements of anybody else: administrators insert jobs and schedules, edit rows and delete
them, at any time.

* `schema` — the tables of the migrations; `Database.admitted_iff` — its constraints are those of
  `Database.Admitted`.
* `Query.run` — one statement of a client.
-/

set_option autoImplicit false

namespace RBackup2

open Sql Transition

/-! ## The schema -/

inductive Table where
  | devices
  | backupJobs
  | schedules
  | runs
  | settings
  deriving DecidableEq, Repr

def Table.columns : Table → List Column
  | .devices => devicesTable
  | .backupJobs => backupJobsTable
  | .schedules => schedulesTable
  | .runs => runsTable
  | .settings => settingsTable

def Table.check : Table → Row → Bool
  | .schedules, r => decide (checkSchedule r)
  | .runs, r => decide (checkStatus r)
  | _, _ => true

def Table.unique : Table → List (List String)
  | .backupJobs => [["device_id", "name"]]
  | .settings => [["device_id", "key"]]
  | _ => []

/-- `REFERENCES … ON DELETE CASCADE`. -/
def Table.references : Table → List (String × Table)
  | .devices => []
  | .backupJobs => [("device_id", .devices)]
  | .schedules => [("job_id", .backupJobs)]
  | .runs => [("job_id", .backupJobs), ("device_id", .devices)]
  | .settings => [("device_id", .devices)]

def Table.rank : Table → Nat
  | .devices => 0
  | .backupJobs => 1
  | .settings => 1
  | .schedules => 2
  | .runs => 2

/-- `migrations/20250101000001_initial_schema.sql`. -/
def schema : Schema Table where
  columns := Table.columns
  key _ := "id"
  check := Table.check
  unique := Table.unique
  references := Table.references
  rank := Table.rank
  depth := 3
  tables := [.devices, .backupJobs, .schedules, .runs, .settings]
  rank_lt := by
    intro t
    cases t <;> decide
  rank_lt_depth := by
    intro t
    cases t <;> decide
  mem_tables := by
    intro t
    cases t <;> decide

def Database.contents (db : Database) : Contents Table
  | .devices => db.devices
  | .backupJobs => db.backupJobs
  | .schedules => db.schedules
  | .runs => db.runs
  | .settings => db.settings

def Database.ofContents (c : Contents Table) : Database :=
  ⟨c .devices, c .backupJobs, c .schedules, c .runs, c .settings⟩

theorem Database.contents_ofContents (c : Contents Table) :
    (Database.ofContents c).contents = c := by
  funext t
  cases t <;> rfl

/-- A column that is `NOT NULL`. -/
theorem ne_null {columns : List Column} {r : Row} (h : Admits columns r) {name : String}
    (hc : columns.any (fun c => c.name == name && c.notNull) = true) : r name ≠ .null := by
  obtain ⟨c, hmem, hcol⟩ := List.any_eq_true.1 hc
  rw [Bool.and_eq_true, beq_iff_eq] at hcol
  obtain ⟨rfl, hnotNull⟩ := hcol
  exact (h c hmem).2 hnotNull

theorem id_ne_null {t : Table} {r : Row} (h : Admits t.columns r) : r "id" ≠ .null :=
  ne_null h (by cases t <;> decide)

/-- A reference resolves in a table if the table has its key. -/
theorem resolves_iff {c : Contents Table} {t : Table} {r : Row} :
    schema.Resolves c.rows t r ↔
      ∀ p ∈ t.references, r p.1 = .null ∨ References r p.1 (c p.2) := Iff.rfl

theorem nodup_filterMap_key {t : Table} {rows : List Row} (h : ∀ r ∈ rows, Admits t.columns r) :
    (rows.filterMap (keyOf ["id"])).Nodup ↔ (rows.map fun r => r "id").Nodup := by
  have heq : rows.filterMap (keyOf ["id"]) = (rows.map fun r => r "id").map fun v => [v] := by
    rw [List.map_map, ← List.filterMap_eq_map]
    exact List.filterMap_congr fun r hr => keyOf_single (id_ne_null (h r hr))
  rw [heq]
  exact List.nodup_map_iff fun _ _ h => List.singleton_injective h

theorem nodup_filterMap_pair {a b : String} {rows : List Row} (h : ∀ r ∈ rows, r b ≠ .null) :
    (rows.filterMap (keyOf [a, b])).Nodup ↔
      ((rows.filter fun r => r a != .null).map fun r => (r a, r b)).Nodup := by
  have heq : rows.filterMap (keyOf [a, b]) =
      ((rows.filter fun r => r a != .null).map fun r => (r a, r b)).map fun p => [p.1, p.2] := by
    rw [List.map_map, ← List.filterMap_eq_map, List.filterMap_filter]
    refine List.filterMap_congr fun r hr => ?_
    have hb := h r hr
    by_cases ha : r a = .null
    · simp [keyOf, ha]
    · simp [keyOf, Ne.symm ha, Ne.symm hb, bne_iff_ne.2 ha]
  rw [heq]
  exact List.nodup_map_iff fun p q h => by simpa [Prod.ext_iff] using h

theorem nodup_jobNames {rows : List Row} (h : ∀ r ∈ rows, Admits backupJobsTable r) :
    (rows.filterMap (keyOf ["device_id", "name"])).Nodup ↔
      (rows.map fun r => (r "device_id", r "name")).Nodup := by
  have hfilter : (rows.filter fun r => r "device_id" != .null) = rows :=
    List.filter_eq_self.2 fun r hr =>
      bne_iff_ne.2 (ne_null (h r hr) (by decide))
  rw [nodup_filterMap_pair fun r hr => ne_null (h r hr) (by decide), hfilter]

theorem nodup_settingKeys {rows : List Row} (h : ∀ r ∈ rows, Admits settingsTable r) :
    (rows.filterMap (keyOf ["device_id", "key"])).Nodup ↔
      ((rows.filter fun r => r "device_id" != .null).map fun r => (r "device_id", r "key")).Nodup :=
  nodup_filterMap_pair fun r hr => ne_null (h r hr) (by decide)

theorem Database.Admitted.valid {db : Database} (h : db.Admitted) : schema.Valid db.contents := by
  have hadm : ∀ t, ∀ r ∈ db.contents t, Admits t.columns r := by
    intro t r hr
    cases t with
    | devices => exact h.devices r hr
    | backupJobs => exact (h.backupJobs r hr).1
    | schedules => exact (h.schedules r hr).1
    | runs => exact (h.runs r hr).1
    | settings => exact (h.settings r hr).1
  refine ⟨fun t r hr => ⟨hadm t r hr, ?_⟩, fun t r hr => resolves_iff.2 ?_, fun t cols hcols => ?_⟩
  · cases t with
    | schedules => exact decide_eq_true (h.schedules r hr).2.1
    | runs => exact decide_eq_true (h.runs r hr).2.1
    | _ => rfl
  · cases t with
    | devices => simp [Table.references]
    | backupJobs => simpa [Table.references] using .inr (h.backupJobs r hr).2
    | schedules => simpa [Table.references] using .inr (h.schedules r hr).2.2
    | runs => simpa [Table.references] using ⟨.inr (h.runs r hr).2.2.1, .inr (h.runs r hr).2.2.2⟩
    | settings => simpa [Table.references, Database.contents] using (h.settings r hr).2
  · rcases List.mem_cons.1 hcols with rfl | hcols
    · refine (nodup_filterMap_key (hadm t)).2 (h.primaryKeys _ ?_)
      cases t <;> simp [Database.contents]
    · cases t with
      | backupJobs =>
        rw [List.mem_singleton.1 hcols]
        exact (nodup_jobNames (hadm .backupJobs)).2 h.jobNames
      | settings =>
        rw [List.mem_singleton.1 hcols]
        exact (nodup_settingKeys (hadm .settings)).2 h.settingKeys
      | _ => cases hcols

theorem Database.Admitted.ofValid {db : Database} (h : schema.Valid db.contents) :
    db.Admitted := by
  have hadm : ∀ t, ∀ r ∈ db.contents t, Admits t.columns r := fun t r hr => (h.fits t r hr).1
  have hres : ∀ t, ∀ r ∈ db.contents t, ∀ p ∈ t.references, r p.1 = .null ∨
      References r p.1 (db.contents p.2) := fun t r hr => resolves_iff.1 (h.closed t r hr)
  have hkeys : ∀ t, ((db.contents t).map fun r => r "id").Nodup := fun t =>
    (nodup_filterMap_key (hadm t)).1 (h.distinct t _ List.mem_cons_self)
  refine ⟨hadm .devices, fun r hr => ⟨hadm .backupJobs r hr, ?_⟩,
    fun r hr => ⟨hadm .schedules r hr, of_decide_eq_true (h.fits .schedules r hr).2, ?_⟩,
    fun r hr => ⟨hadm .runs r hr, of_decide_eq_true (h.fits .runs r hr).2, ?_, ?_⟩,
    fun r hr => ⟨hadm .settings r hr, ?_⟩, ?_, ?_, ?_⟩
  · exact (hres .backupJobs r hr ("device_id", .devices) (by decide)).resolve_left
      (ne_null (hadm .backupJobs r hr) (by decide))
  · exact (hres .schedules r hr ("job_id", .backupJobs) (by decide)).resolve_left
      (ne_null (hadm .schedules r hr) (by decide))
  · exact (hres .runs r hr ("job_id", .backupJobs) (by decide)).resolve_left
      (ne_null (hadm .runs r hr) (by decide))
  · exact (hres .runs r hr ("device_id", .devices) (by decide)).resolve_left
      (ne_null (hadm .runs r hr) (by decide))
  · exact hres .settings r hr ("device_id", .devices) (by decide)
  · intro rows hrows
    simp only [List.mem_cons, List.not_mem_nil, or_false] at hrows
    rcases hrows with rfl | rfl | rfl | rfl | rfl
    · exact hkeys .devices
    · exact hkeys .backupJobs
    · exact hkeys .schedules
    · exact hkeys .runs
    · exact hkeys .settings
  · refine (nodup_jobNames (hadm .backupJobs)).1 (h.distinct .backupJobs _ ?_)
    exact List.mem_cons_of_mem _ List.mem_cons_self
  · refine (nodup_settingKeys (hadm .settings)).1 (h.distinct .settings _ ?_)
    exact List.mem_cons_of_mem _ List.mem_cons_self

/-- A row is the only one with its key, in a table with no other key. -/
theorem distinct_insert_iff {c : Contents Table} (hc : schema.Valid c) {t : Table}
    (ht : t.unique = []) {row : Row} (hrow : Admits t.columns row) :
    schema.Distinct t (c t ++ [row]) ↔ ∀ r ∈ c t, r "id" ≠ row "id" := by
  have hadm : ∀ r ∈ c t ++ [row], Admits t.columns r := by
    intro r hr
    rcases List.mem_append.1 hr with hr | hr
    · exact (hc.fits t r hr).1
    · rwa [List.mem_singleton.1 hr]
  have hids : ((c t).map fun r => r "id").Nodup :=
    (nodup_filterMap_key fun r hr => (hc.fits t r hr).1).1 (hc.distinct t _ List.mem_cons_self)
  have hkeys : schema.distinctBy t = [["id"]] := congrArg (List.cons ["id"]) ht
  rw [Schema.Distinct, hkeys, List.forall_mem_singleton, nodup_filterMap_key hadm,
    List.map_append, List.map_singleton, ← List.concat_eq_append, List.nodup_concat,
    and_iff_left hids, List.mem_map]
  exact ⟨fun h r hr heq => h ⟨r, hr, heq⟩, fun h ⟨r, hr, heq⟩ => h r hr heq⟩

/-- The constraints of the schema are those of `Database.Admitted`. -/
theorem Database.admitted_iff (db : Database) : db.Admitted ↔ schema.Valid db.contents :=
  ⟨Database.Admitted.valid, Database.Admitted.ofValid⟩

/-! ## The statements of a client -/

/-- A parameter that may be NULL. -/
def orNull {α : Type} (f : α → Value) : Option α → Value
  | none => .null
  | some a => f a

theorem hasType_orNull {α : Type} {f : α → Value} {t : SqlType} (o : Option α) :
    (orNull f o).hasType t = true ↔ ∀ a ∈ o, (f a).hasType t = true := by
  cases o with
  | none => cases t <;> simp [orNull, Value.hasType]
  | some a => simp [orNull]

/-- The columns with a `DEFAULT`, at the server's time. -/
def Table.defaults (now : DateTime) : Table → List (String × Value)
  | .devices => [("created_at", .timestamp now), ("updated_at", .timestamp now),
      ("enabled", .bool true), ("metadata", .json "\x7b\x7d")]
  | .backupJobs => [("restic_args", .json "[]"), ("enabled", .bool true),
      ("created_at", .timestamp now), ("updated_at", .timestamp now),
      ("metadata", .json "\x7b\x7d")]
  | .schedules => [("enabled", .bool true), ("created_at", .timestamp now),
      ("updated_at", .timestamp now), ("metadata", .json "\x7b\x7d")]
  | .runs => [("created_at", .timestamp now), ("metadata", .json "\x7b\x7d")]
  | .settings => [("created_at", .timestamp now), ("updated_at", .timestamp now)]

/-- The row `INSERT INTO t (…) VALUES (…)` adds. -/
def Table.newRow (t : Table) (now : DateTime) (values : List (String × Value)) : Row :=
  (Row.empty.assign (t.defaults now)).assign values

/-- A statement with its parameters; what it writes may depend on the rows there are. -/
structure Query where
  params : List Value
  statement : Contents Table → Statement Table

/-- No text of the server has a NUL character in it; that it also takes no more than 1 GB is left
    out. -/
def sendable : Value → Bool
  | .text s => !s.toList.contains (Char.ofNat 0)
  | .array items => items.all fun item => !(item.getD "").toList.contains (Char.ofNat 0)
  | .json text => !text.toList.contains (Char.ofNat 0)
  | _ => true

/-- The contents after a query, unless the server refuses a parameter or the statement. -/
def Query.run (q : Query) (c : Contents Table) : Option (Contents Table) :=
  if q.params.all sendable then schema.execute c (q.statement c) else none

/-- `INSERT INTO devices … ON CONFLICT (id) DO UPDATE`, with texts as the columns are given them. -/
def upsertStatement (now : DateTime) (id name platform : String) (hostname : Option String)
    (c : Contents Table) : Statement Table :=
  if (c .devices).any fun r => r "id" == .text id then
    .update .devices (fun r => r "id" == .text id) fun _ =>
      [("name", .text name), ("platform", .text platform), ("hostname", orNull .text hostname),
        ("last_seen", .timestamp now), ("updated_at", .timestamp now)]
  else
    .insert .devices (Table.devices.newRow now
      [("id", .text id), ("name", .text name), ("platform", .text platform),
        ("hostname", orNull .text hostname), ("last_seen", .timestamp now),
        ("enabled", .bool true)])

/-- `upsert_device`. -/
def Query.upsertDevice (now : DateTime) (deviceId name platform : String)
    (hostname : Option String) : Query where
  params := [.text deviceId, .text name, .text platform, orNull .text hostname]
  statement := upsertStatement now (cutBlanks 255 deviceId) (cutBlanks 255 name)
    (cutBlanks 50 platform) (hostname.map (cutBlanks 255))

/-- `update_device_heartbeat`; the metadata by its text. -/
def Query.updateDeviceHeartbeat (now : DateTime) (deviceId : String) (hostname : Option String)
    (metadata : String) : Query where
  params := [.text deviceId, orNull .text hostname, .json metadata]
  statement _ := .update .devices (fun r => r "id" == .text deviceId) fun _ =>
    [("last_seen", .timestamp now), ("hostname", orNull .text (hostname.map (cutBlanks 255))),
      ("metadata", .json metadata), ("updated_at", .timestamp now)]

/-- `update_schedule_last_run`. -/
def Query.updateScheduleLastRun (now : DateTime) (jobId : Uuid) (lastRunAt : DateTime)
    (nextRunAt : Option DateTime) : Query where
  params := [.uuid jobId, .timestamp (timestamptz lastRunAt),
    orNull .timestamp (nextRunAt.map timestamptz)]
  statement _ := .update .schedules (fun r => r "job_id" == .uuid jobId) fun _ =>
    [("last_run_at", .timestamp (timestamptz lastRunAt)),
      ("next_run_at", orNull .timestamp (nextRunAt.map timestamptz)),
      ("updated_at", .timestamp now)]

/-- `create_run`, with the id the sequence gives.  The device id is one that a row has, so it is not
    cut. -/
def Query.createRun (now : DateTime) (id : Int) (jobId : Uuid) (deviceId triggeredBy : String) :
    Query where
  params := [.uuid jobId, .text deviceId, .text triggeredBy]
  statement _ := .insert .runs (Table.runs.newRow now
    [("id", .int id), ("job_id", .uuid jobId), ("device_id", .text deviceId),
      ("start_time", .timestamp now), ("status", .text "running"),
      ("triggered_by", .text triggeredBy)])

/-- `EXTRACT(EPOCH FROM ($2 - start_time))::INTEGER`. -/
def durationSeconds (endTime : DateTime) (r : Row) : Value :=
  match r "start_time" with
  | .timestamp startTime => .int (extractEpoch (timestamptz endTime - startTime))
  | _ => .null

/-- `update_run`.  A snapshot id that is too long by blanks only is refused here, and cut by the
    server. -/
def Query.updateRun (runId : Int) (endTime : DateTime) (u : RunUpdate) : Query where
  params := [.int runId, .timestamp (timestamptz endTime), .text u.status, orNull .int u.exitCode,
    orNull .text u.errorMessage, orNull .int u.filesNew, orNull .int u.filesChanged,
    orNull .int u.filesUnmodified, orNull .int u.dataAddedBytes, orNull .text u.snapshotId,
    orNull .text u.resticOutput, orNull .text u.resticErrors]
  statement _ := .update .runs (fun r => r "id" == .int runId) fun r =>
    [("end_time", .timestamp (timestamptz endTime)), ("status", .text u.status),
      ("exit_code", orNull .int u.exitCode), ("error_message", orNull .text u.errorMessage),
      ("files_new", orNull .int u.filesNew), ("files_changed", orNull .int u.filesChanged),
      ("files_unmodified", orNull .int u.filesUnmodified),
      ("data_added_bytes", orNull .int u.dataAddedBytes),
      ("snapshot_id", orNull .text u.snapshotId), ("restic_output", orNull .text u.resticOutput),
      ("restic_errors", orNull .text u.resticErrors),
      ("duration_seconds", durationSeconds endTime r)]

/-! ## Runs of statements -/

/-- The statements of `db/queries.rs` that write. -/
inductive ClientStatement where
  | upsertDevice (deviceId name platform : String) (hostname : Option String)
  | updateDeviceHeartbeat (deviceId : String) (hostname : Option String) (metadata : String)
  | updateScheduleLastRun (jobId : Uuid) (lastRunAt : DateTime) (nextRunAt : Option DateTime)
  | createRun (jobId : Uuid) (deviceId triggeredBy : String)
  | updateRun (runId : Int) (endTime : DateTime) (u : RunUpdate)

/-- The tables and the sequence of `runs.id`. -/
structure Server where
  contents : Contents Table
  nextRunId : Int

def Server.database (s : Server) : Database := .ofContents s.contents

/-- The query of a statement, at the server's time. -/
def ClientStatement.query (s : Server) (now : DateTime) : ClientStatement → Query
  | .upsertDevice deviceId name platform hostname =>
    .upsertDevice now deviceId name platform hostname
  | .updateDeviceHeartbeat deviceId hostname metadata =>
    .updateDeviceHeartbeat now deviceId hostname metadata
  | .updateScheduleLastRun jobId lastRunAt nextRunAt =>
    .updateScheduleLastRun now jobId lastRunAt nextRunAt
  | .createRun jobId deviceId triggeredBy => .createRun now s.nextRunId jobId deviceId triggeredBy
  | .updateRun runId endTime u => .updateRun runId endTime u

/-- How many ids the statement draws from the sequence. -/
def ClientStatement.draws : ClientStatement → Int
  | .createRun _ _ _ => 1
  | _ => 0

inductive ServerAction where
  /-- A statement of some client. -/
  | client (q : ClientStatement) (now : DateTime)
  /-- A statement of anybody else. -/
  | other (st : Statement Table)

/-- The server after an action, unless it refuses it.  That a refused INSERT may draw an id as well
    only changes later ids. -/
def Server.execute (s : Server) : ServerAction → Option Server
  | .client q now => ((q.query s now).run s.contents).map fun c => ⟨c, s.nextRunId + q.draws⟩
  | .other st => (schema.execute s.contents st).map fun c => ⟨c, s.nextRunId⟩

/-- A refused statement changes nothing. -/
def Server.step (s : Server) (a : ServerAction) : Option Server := some ((s.execute a).getD s)

def Server.after (s : Server) (as : List ServerAction) : Server :=
  as.foldl (fun s a => (s.execute a).getD s) s

theorem Server.exec_after : ∀ (s : Server) (as : List ServerAction),
    exec Server.step s as = some (s.after as)
  | _, [] => rfl
  | _, _ :: as => exec_cons.2 ⟨_, rfl, Server.exec_after _ as⟩

/-! ## Every database there can be -/

theorem Query.run_eq_some {q : Query} {c c' : Contents Table} (h : q.run c = some c') :
    q.params.all sendable = true ∧ schema.execute c (q.statement c) = some c' := by
  unfold Query.run at h
  split at h
  · rename_i hsend
    exact ⟨hsend, h⟩
  · cases h

/-- What the server looks at in a statement of a client. -/
theorem Server.accepts_iff {s : Server} {q : ClientStatement} {now : DateTime} :
    (∃ s', s.execute (.client q now) = some s') ↔ (q.query s now).params.all sendable = true ∧
      schema.Checks s.contents ((q.query s now).statement s.contents) := by
  simp only [Server.execute, Option.map_eq_some_iff, Query.run]
  by_cases hsend : (q.query s now).params.all sendable = true
  · simp [hsend, Schema.execute_eq_some_iff]
  · simp [hsend]

/-- What an accepted action executes. -/
theorem Server.execute_eq_some {s s' : Server} {a : ServerAction} (h : s.execute a = some s') :
    (∃ q now, a = .client q now ∧ (q.query s now).run s.contents = some s'.contents ∧
      s'.nextRunId = s.nextRunId + q.draws) ∨
    (∃ st, a = .other st ∧ schema.execute s.contents st = some s'.contents ∧
      s'.nextRunId = s.nextRunId) := by
  cases a with
  | client q now =>
    obtain ⟨c, hc, rfl⟩ := Option.map_eq_some_iff.1 h
    exact .inl ⟨q, now, rfl, hc, rfl⟩
  | other st =>
    obtain ⟨c, hc, rfl⟩ := Option.map_eq_some_iff.1 h
    exact .inr ⟨st, rfl, hc, rfl⟩

theorem Server.step_eq {s s' : Server} {a : ServerAction} (h : s.step a = some s') :
    s' = s ∨ s.execute a = some s' := by
  cases h
  cases hex : s.execute a with
  | none => exact .inl rfl
  | some t => exact .inr rfl

theorem Server.execute_valid {s s' : Server} {a : ServerAction} (hs : schema.Valid s.contents)
    (h : s.execute a = some s') : schema.Valid s'.contents := by
  obtain ⟨q, now, -, hrun, -⟩ | ⟨st, -, hrun, -⟩ := Server.execute_eq_some h
  · exact Schema.execute_valid hs (Query.run_eq_some hrun).2
  · exact Schema.execute_valid hs hrun

theorem Server.step_valid {s s' : Server} {a : ServerAction} (hs : schema.Valid s.contents)
    (h : s.step a = some s') : schema.Valid s'.contents := by
  rcases Server.step_eq h with rfl | hex
  · exact hs
  · exact Server.execute_valid hs hex

theorem Server.valid_of_exec {s s' : Server} (hs : schema.Valid s.contents)
    {as : List ServerAction} (h : exec Server.step s as = some s') : schema.Valid s'.contents :=
  exec_invariant (I := fun s : Server => schema.Valid s.contents)
    (fun _ _ _ hs hstep => Server.step_valid hs hstep) hs h

theorem Server.valid_of_admitted {s : Server} (h : s.database.Admitted) :
    schema.Valid s.contents := by
  have hvalid := (Database.admitted_iff _).1 h
  rwa [Server.database, Database.contents_ofContents] at hvalid

theorem Server.admitted_of_valid {s : Server} (h : schema.Valid s.contents) :
    s.database.Admitted := by
  rw [Database.admitted_iff, Server.database, Database.contents_ofContents]
  exact h

/-- **The constraints always hold.**  Whatever clients and anybody else insert, update and delete,
    in any order, every type, key, check and reference of the migrations is kept. -/
theorem database_stays_admitted {s s' : Server} (hs : s.database.Admitted)
    {as : List ServerAction} (h : exec Server.step s as = some s') : s'.database.Admitted :=
  Server.admitted_of_valid (Server.valid_of_exec (Server.valid_of_admitted hs) h)

/-- A default setting of `migrations/20250101000002_initial_data.sql`. -/
def globalSetting (now : DateTime) (id : Int) (key value description : String) : Row :=
  Table.settings.newRow now [("id", .int id), ("key", .text key), ("value", .text value),
    ("description", .text description)]

/-- The database the migrations leave. -/
def Database.migrated (now : DateTime) : Database where
  devices := []
  backupJobs := []
  schedules := []
  runs := []
  settings := [
    globalSetting now 1 "sync_interval_seconds" "300" "How often clients sync config from database",
    globalSetting now 2 "max_concurrent_backups" "1" "Maximum concurrent backup jobs per device",
    globalSetting now 3 "run_retention_days" "90" "How long to keep run history in database",
    globalSetting now 4 "repository_url" ""
      "Shared restic repository URL (e.g., sftp:user@host:/path/to/repo)",
    globalSetting now 5 "repository_password" "" "Repository password for restic",
    globalSetting now 6 "repository_cache_dir" ""
      "Restic cache directory (empty = restic default)"]

theorem Database.migrated_admitted (now : DateTime) : (Database.migrated now).Admitted := by
  have hadm : ∀ r ∈ (Database.migrated now).settings, Admits settingsTable r ∧
      (r "device_id" = .null ∨ References r "device_id" (Database.migrated now).devices) :=
    of_decide_eq_true rfl
  exact ⟨by simp [Database.migrated], by simp [Database.migrated], by simp [Database.migrated],
    by simp [Database.migrated], hadm, of_decide_eq_true rfl, of_decide_eq_true rfl,
    of_decide_eq_true rfl⟩

/-- A job of the device, as an administrator inserts it. -/
def jobRow (now : DateTime) (jobId : Uuid) (deviceId name : String) : Row :=
  Table.backupJobs.newRow now [("id", .uuid jobId), ("device_id", .text deviceId),
    ("name", .text name), ("source_paths", .array [some "/home"])]

/-- A client registers and backs up, an administrator deletes the device meanwhile; the second
    backup is refused. -/
def ServerAction.sample : List ServerAction :=
  [.client (.upsertDevice "blade" "blade" "linux" none) 0,
    .other (.insert .backupJobs (jobRow 0 1 "blade" "home")),
    .client (.createRun 1 "blade" "manual") 0,
    .other (.delete .devices fun r => r "id" == .text "blade"),
    .client (.updateRun 1 0 (failureUpdate "timeout" none none none)) 0,
    .client (.createRun 1 "blade" "manual") 0]

/-! ## What the clients write they can read -/

def Table.fields : Table → List Field
  | .devices => deviceFields
  | .backupJobs => backupJobFields
  | .schedules => scheduleFields
  | .runs => runFields
  | .settings => settingFields

/-- The row has no NULL its struct has no place for. -/
def Readable (t : Table) (r : Row) : Prop :=
  r.Without (nullGaps t.columns t.fields) (elementGaps t.fields)

instance (t : Table) (r : Row) : Decidable (Readable t r) := inferInstanceAs (Decidable (_ ∧ _))

/-- Readable rows stay so. -/
def KeepsReadable : Statement Table → Prop
  | .insert t row => Readable t row
  | .update t _ values => ∀ r, Readable t r → Readable t (r.assign (values r))
  | .delete _ _ => True

theorem keepsReadable_query (s : Server) (now : DateTime) (q : ClientStatement) :
    KeepsReadable ((q.query s now).statement s.contents) := by
  cases q with
  | upsertDevice deviceId name platform hostname =>
    simp only [ClientStatement.query, Query.upsertDevice, upsertStatement]
    split
    · exact fun r hr => hr.assign (of_decide_eq_true rfl)
    · have hrow : ∀ id name platform host, Readable .devices (Table.devices.newRow now
          [("id", .text id), ("name", .text name), ("platform", .text platform),
            ("hostname", host), ("last_seen", .timestamp now), ("enabled", .bool true)]) :=
        fun _ _ _ _ => of_decide_eq_true rfl
      exact hrow _ _ _ _
  | updateDeviceHeartbeat deviceId hostname metadata =>
    exact fun r hr => hr.assign (of_decide_eq_true rfl)
  | updateScheduleLastRun jobId lastRunAt nextRunAt =>
    exact fun r hr => hr.assign (of_decide_eq_true rfl)
  | createRun jobId deviceId triggeredBy =>
    have hrow : Readable .runs (Table.runs.newRow now
      [("id", .int s.nextRunId), ("job_id", .uuid jobId), ("device_id", .text deviceId),
        ("start_time", .timestamp now), ("status", .text "running"),
        ("triggered_by", .text triggeredBy)]) := of_decide_eq_true rfl
    exact hrow
  | updateRun runId endTime u => exact fun r hr => hr.assign (of_decide_eq_true rfl)

/-- No row of the contents has such a NULL. -/
def AllReadable (c : Contents Table) : Prop := ∀ t, ∀ r ∈ c t, Readable t r

theorem AllReadable.execute {c c' : Contents Table} {st : Statement Table} (hc : AllReadable c)
    (hst : KeepsReadable st) (h : schema.execute c st = some c') : AllReadable c' := by
  obtain ⟨-, rfl⟩ := Schema.execute_eq_some_iff.1 h
  cases st with
  | insert t row => exact Schema.forall_insert hc hst
  | update t p values => exact Schema.forall_assign hc fun r hr _ => hst r (hc t r hr)
  | delete t p => exact Schema.forall_delete hc

theorem AllReadable.step {s s' : Server} {a : ServerAction} (hs : AllReadable s.contents)
    (hother : ∀ st, a = .other st → KeepsReadable st) (h : s.step a = some s') :
    AllReadable s'.contents := by
  rcases Server.step_eq h with rfl | hex
  · exact hs
  · obtain ⟨q, now, -, hrun, -⟩ | ⟨st, rfl, hrun, -⟩ := Server.execute_eq_some hex
    · exact hs.execute (keepsReadable_query s now q) (Query.run_eq_some hrun).2
    · exact hs.execute (hother st rfl) hrun

/-- Rows without such NULLs are decoded, whatever is selected. -/
theorem AllReadable.decodes {db : Database} (hadm : db.Admitted) (h : AllReadable db.contents)
    (deviceId : String) (jobId : Uuid) (limit : Int) : db.Decodes deviceId jobId limit := by
  have hjobs : ∀ r ∈ db.backupJobs, Admits backupJobsTable r := fun r hr =>
    (hadm.backupJobs r hr).1
  have hsettings : ∀ r ∈ db.settingRows deviceId, r ∈ db.settings := by
    intro r hr
    rcases List.mem_append.1 hr with hr | hr
    · exact (List.mem_filter.1 hr).1
    · exact (List.mem_filter.1 hr).1
  refine ⟨?_, ?_, ?_, ?_, ?_, ?_⟩
  · refine (fetchAll_decodes_iff backupJobs_gaps fun r hr => ?_).2 fun r hr => ?_
    · exact hjobs r (List.mem_filter.1 hr).1
    · exact h .backupJobs r (List.mem_filter.1 hr).1
  · refine (fetchOptional_decodes_iff backupJobs_gaps (hadm.primaryKeys _ (by simp)) hjobs).2 ?_
    exact fun r hr => h .backupJobs r (List.mem_filter.1 hr).1
  · refine (fetchAll_decodes_iff schedules_gaps fun r hr => ?_).2 fun r hr => ?_
    · exact (hadm.schedules r (List.mem_filter.1 hr).1).1
    · exact h .schedules r (List.mem_filter.1 hr).1
  · refine (fetchAll_decodes_iff runs_gaps fun r hr => ?_).2 fun r hr => ?_
    · exact (hadm.runs r (Database.mem_runs hr)).1
    · exact h .runs r (Database.mem_runs hr)
  · refine (fetchAll_decodes_iff settings_gaps fun r hr => ?_).2 fun r hr => ?_
    · exact (hadm.settings r (hsettings r hr)).1
    · exact h .settings r (hsettings r hr)
  · refine (fetchOptional_decodes_iff devices_gaps (hadm.primaryKeys _ (by simp))
      hadm.devices).2 ?_
    exact fun r hr => h .devices r (List.mem_filter.1 hr).1

/-- **What the clients write they can read.**  As long as nobody else writes a NULL that the models
    have no place for, every query decodes all it selects, after any statements of any clients. -/
theorem clients_write_what_they_read {s s' : Server} (hs : s.database.Admitted)
    (hread : AllReadable s.contents) {as : List ServerAction}
    (hothers : ∀ st, .other st ∈ as → KeepsReadable st) (h : exec Server.step s as = some s')
    (deviceId : String) (jobId : Uuid) (limit : Int) :
    s'.database.Decodes deviceId jobId limit := by
  have hvalid := Server.valid_of_exec (Server.valid_of_admitted hs) h
  have hreadable : AllReadable s'.contents := by
    refine exec_along (I := fun s : Server => AllReadable s.contents)
      (G := fun _ a => ∀ st, a = .other st → KeepsReadable st)
      (fun _ _ _ hs hg hstep => hs.step hg hstep) hread
      (along_of_forall (fun a ha _ st hst => ?_) s) h
    exact hothers st (hst ▸ ha)
  refine AllReadable.decodes (Server.admitted_of_valid hvalid) ?_ deviceId jobId limit
  rw [Server.database, Database.contents_ofContents]
  exact hreadable

/-- No such NULL is in what the migrations leave, nor in the job. -/
theorem clients_write_what_they_read_migrated :
    ∃ s, exec Server.step ⟨(Database.migrated 0).contents, 1⟩ (ServerAction.sample.take 3) =
        some s ∧ s.database.runs.length = 1 ∧ s.database.Decodes "blade" 1 10 := by
  have hread : AllReadable (Database.migrated 0).contents := by
    intro t
    cases t with
    | settings => exact fun r _ => ⟨fun n hn => (by cases hn), fun n hn => (by cases hn)⟩
    | _ => exact fun r hr => (by cases hr)
  have hothers : ∀ st, .other st ∈ ServerAction.sample.take 3 → KeepsReadable st := by
    intro st hst
    simp only [ServerAction.sample, List.take, List.mem_cons, reduceCtorEq, List.not_mem_nil,
      or_false, false_or, ServerAction.other.injEq] at hst
    subst hst
    exact (of_decide_eq_true rfl : Readable .backupJobs (jobRow 0 1 "blade" "home"))
  exact ⟨_, Server.exec_after _ _, by decide, clients_write_what_they_read
    (s := ⟨(Database.migrated 0).contents, 1⟩) (Database.migrated_admitted 0) hread hothers
    (Server.exec_after _ _) "blade" 1 10⟩

end RBackup2
