import RBackup2.Backup.OnServer
import RBackup2.Scheduler.Fleet

/-!
# Schedulers on a server

The schedulers of a fleet read and write the tables of a server that checks every statement, among
all the other statements clients send, while anybody else writes to the other tables.

* `Row.toBackupJob`, `Row.toSchedule` — rows as the structs they are decoded into;
  `scheduleRows_toSchedule`, `tables_update` — the SELECT and the UPDATE of the schedulers, on rows
  and on structs.
* `updateScheduleLastRun_accepted` — the server never refuses the UPDATE.
* `fleet_on_server` — the schedulers take the steps they take on the tables of structs, and every
  run they have there they have on the server.
-/

set_option autoImplicit false

namespace RBackup2

open Sql Transition

/-! ## Rows and structs -/

def Value.toBool : Value → Option Bool
  | .bool b => some b
  | _ => none

/-- A NULL element has no place in a `Vec<String>`; rows with one are not decoded. -/
def Value.toArray : Value → Option (List String)
  | .array items => some (items.map fun item => item.getD "")
  | _ => none

/-- `json` reads the text of a JSONB value. -/
def Value.toJson (json : String → Json) : Value → Option Json
  | .json text => some (json text)
  | _ => none

/-- The struct a row of `backup_jobs` is decoded into. -/
def Row.toBackupJob (json : String → Json) (r : Row) : BackupJob where
  id := (Value.toUuid (r "id")).getD 0
  deviceId := (Value.toText (r "device_id")).getD ""
  name := (Value.toText (r "name")).getD ""
  sourcePaths := (Value.toArray (r "source_paths")).getD []
  excludePatterns := Value.toArray (r "exclude_patterns")
  tags := Value.toArray (r "tags")
  resticArgs := (Value.toJson json (r "restic_args")).getD .null
  enabled := (Value.toBool (r "enabled")).getD false
  originName := Value.toText (r "origin_name")
  accountId := Value.toUuid (r "account_id")

/-- The struct a row of `schedules` is decoded into. -/
def Row.toSchedule (r : Row) : Schedule where
  id := (Value.toInt (r "id")).getD 0
  jobId := (Value.toUuid (r "job_id")).getD 0
  scheduleType := (Value.toText (r "schedule_type")).getD ""
  cronExpression := Value.toText (r "cron_expression")
  intervalSeconds := Value.toInt (r "interval_seconds")
  enabled := (Value.toBool (r "enabled")).getD false
  lastRunAt := Value.toTimestamp (r "last_run_at")
  nextRunAt := Value.toTimestamp (r "next_run_at")

@[simp] theorem toTimestamp_orNull (o : Option DateTime) :
    Value.toTimestamp (orNull .timestamp o) = o := by
  cases o <;> rfl

section Columns

variable {columns : List Column} {r : Row} (hr : Admits columns r) {name : String}

include hr

theorem uuid_column (hc : notNull name .uuid ∈ columns) :
    r name = .uuid ((Value.toUuid (r name)).getD 0) := by
  obtain ⟨u, hu⟩ := Value.uuid_of_hasType (hr _ hc).1 ((hr _ hc).2 rfl)
  have hval : r name = .uuid u := hu
  rw [hval]
  rfl

theorem bool_column (hc : notNull name .boolean ∈ columns) :
    r name = .bool ((Value.toBool (r name)).getD false) := by
  obtain ⟨b, hb⟩ := Value.bool_of_hasType (hr _ hc).1 ((hr _ hc).2 rfl)
  have hval : r name = .bool b := hb
  rw [hval]
  rfl

theorem text_column {n : Nat} (hc : notNull name (.varchar n) ∈ columns) :
    r name = .text ((Value.toText (r name)).getD "") := by
  obtain ⟨s, hs⟩ := Value.text_of_hasType (.inr (hr _ hc).1) ((hr _ hc).2 rfl)
  have hval : r name = .text s := hs
  rw [hval]
  rfl

end Columns

/-- The columns of a job the SELECTs look at. -/
theorem backupJob_columns (json : String → Json) {r : Row} (hr : Admits backupJobsTable r) :
    r "id" = .uuid (Row.toBackupJob json r).id ∧
      r "device_id" = .text (Row.toBackupJob json r).deviceId ∧
      r "enabled" = .bool (Row.toBackupJob json r).enabled :=
  ⟨uuid_column hr (by decide), text_column (n := 255) hr (by decide), bool_column hr (by decide)⟩

/-- The columns of a schedule the statements look at. -/
theorem schedule_columns {r : Row} (hr : Admits schedulesTable r) :
    r "job_id" = .uuid (Row.toSchedule r).jobId ∧
      r "enabled" = .bool (Row.toSchedule r).enabled :=
  ⟨uuid_column hr (by decide), bool_column hr (by decide)⟩

/-! ## The tables -/

section Tables

variable (json : String → Json)

/-- The jobs and schedules of the server. -/
def Server.tables (s : Server) : Tables where
  jobs := (s.contents .backupJobs).map (Row.toBackupJob json)
  rows := (s.contents .schedules).map Row.toSchedule

/-- The SELECT of `get_schedules_for_device`, on rows and on structs. -/
theorem scheduleRows_toSchedule {s : Server} (hs : schema.Valid s.contents) (deviceId : String) :
    (s.database.scheduleRows deviceId).map Row.toSchedule =
      getSchedulesForDevice (s.tables json).jobs (s.tables json).rows deviceId := by
  unfold Database.scheduleRows Database.jobRows getSchedulesForDevice Server.tables
  rw [List.filter_map]
  congr 1
  refine List.filter_congr fun r hr => ?_
  obtain ⟨hjob, henabled⟩ := schedule_columns (hs.fits .schedules r hr).1
  have hen : (r "enabled" == .bool true) = (Row.toSchedule r).enabled := by
    rw [henabled]
    cases (Row.toSchedule r).enabled <;> rfl
  simp only [Function.comp_apply, hen, List.any_map, List.any_filter]
  congr 1
  rw [Bool.eq_iff_iff, List.any_eq_true, List.any_eq_true]
  refine exists_congr fun j => and_congr_right fun hj => ?_
  obtain ⟨hid, hdevice, hjen⟩ := backupJob_columns json (hs.fits .backupJobs j hj).1
  simp only [Function.comp_apply, hid, hdevice, hjen, hjob, Bool.and_eq_true, beq_iff_eq,
    Value.text.injEq, Value.bool.injEq, Value.uuid.injEq]
  constructor
  · rintro ⟨⟨hd, he⟩, hj⟩
    exact ⟨⟨hj.symm, hd⟩, he⟩
  · rintro ⟨⟨hj, hd⟩, he⟩
    exact ⟨⟨hd, he⟩, hj.symm⟩

/-- The UPDATE of the two times, on the row and on the struct. -/
theorem toSchedule_assign (now last : DateTime) (next : Option DateTime) (r : Row) :
    Row.toSchedule (r.assign [("last_run_at", .timestamp (timestamptz last)),
        ("next_run_at", orNull .timestamp (next.map timestamptz)),
        ("updated_at", .timestamp now)]) =
      { Row.toSchedule r with
        lastRunAt := some (timestamptz last)
        nextRunAt := next.map timestamptz } := by
  have hassign : Row.toSchedule (r.assign [("last_run_at", .timestamp (timestamptz last)),
      ("next_run_at", orNull .timestamp (next.map timestamptz)),
      ("updated_at", .timestamp now)]) =
      { Row.toSchedule r with
        lastRunAt := some (timestamptz last)
        nextRunAt := Value.toTimestamp (orNull .timestamp (next.map timestamptz)) } := rfl
  rw [hassign, toTimestamp_orNull]

/-- The UPDATE of `update_schedule_last_run`, on rows and on structs. -/
theorem tables_update {s s' : Server} (hs : schema.Valid s.contents) {now last : DateTime}
    {jobId : Uuid} {next : Option DateTime}
    (h : s.execute (.client (.updateScheduleLastRun jobId last next) now) = some s') :
    s'.tables json =
      ⟨(s.tables json).jobs, updateScheduleLastRun jobId last next (s.tables json).rows⟩ := by
  obtain ⟨c, hc, rfl⟩ := Option.map_eq_some_iff.1 h
  obtain ⟨-, rfl⟩ := Schema.execute_eq_some_iff.1 (Query.run_eq_some hc).2
  simp only [Server.tables, ClientStatement.query, Query.updateScheduleLastRun, Schema.apply,
    Function.update_self, updateRows, updateScheduleLastRun, List.map_map, Tables.mk.injEq]
  refine ⟨?_, List.map_congr_left fun r hr => ?_⟩
  · rw [Function.update_of_ne (by decide)]
  · obtain ⟨hjob, -⟩ := schedule_columns (hs.fits .schedules r hr).1
    simp only [Function.comp_apply, hjob, beq_iff_eq, Value.uuid.injEq]
    by_cases hid : (Row.toSchedule r).jobId = jobId
    · rw [if_pos hid, if_pos hid, toSchedule_assign]
    · rw [if_neg hid, if_neg hid]

end Tables

/-- **The server never refuses the UPDATE of the schedulers.** -/
theorem updateScheduleLastRun_accepted {s : Server} (hs : schema.Valid s.contents)
    (now last : DateTime) (jobId : Uuid) (next : Option DateTime) :
    ∃ s', s.execute (.client (.updateScheduleLastRun jobId last next) now) = some s' := by
  have hkeys : ∀ n ∈ ["last_run_at", "next_run_at", "updated_at"],
      n ∉ schema.keyColumns .schedules := by decide
  have hchecks : schema.Checks s.contents
      ((Query.updateScheduleLastRun now jobId last next).statement s.contents) := by
    refine (Schema.checks_update_iff hs fun r _ => ?_).2 fun r hr _ => ?_
    · exact hkeys
    · obtain ⟨hadm, hcheck⟩ := hs.fits .schedules r hr
      refine ⟨hadm.assign ?_, hcheck⟩
      cases next <;> exact of_decide_eq_true rfl
  have hsend : (Query.updateScheduleLastRun now jobId last next).params.all sendable = true := by
    cases next <;> rfl
  exact Server.accepts_iff.2 ⟨hsend, hchecks⟩

/-! ## Statements that concern neither jobs nor schedules -/

/-- The action may add, change or remove a job or a schedule. -/
def ServerAction.writesSchedules : ServerAction → Bool
  | .client (.updateScheduleLastRun _ _ _) _ => true
  | .client _ _ => false
  | .other (.insert t _) => t == .backupJobs || t == .schedules
  | .other (.update t _ _) => t == .backupJobs || t == .schedules
  | .other (.delete t _) => t != .runs && t != .settings

/-- Only devices and jobs are referred to. -/
theorem references_target : ∀ t : Table, ∀ ref ∈ t.references,
    ref.2 = .devices ∨ ref.2 = .backupJobs := by
  intro t
  cases t <;> decide

/-- Nothing depends on runs or settings but themselves. -/
theorem depends_table {c : Contents Table} {t u : Table} {p : Row → Bool} {r : Row}
    (ht : t = .runs ∨ t = .settings) (h : Schema.Depends schema c t p u r) : u = t := by
  induction h with
  | deleted _ => rfl
  | refers href _ _ _ _ ih =>
    rcases references_target _ _ href with hu | hu <;> rw [hu] at ih <;>
      rcases ht with rfl | rfl <;> cases ih

theorem contents_nodup {c : Contents Table} (hc : schema.Valid c) (t : Table) : (c t).Nodup :=
  ((nodup_filterMap_key fun r hr => (hc.fits t r hr).1).1
    (hc.distinct t _ List.mem_cons_self)).of_map _

theorem tables_other {json : String → Json} {s s' : Server} (hs : schema.Valid s.contents)
    {a : ServerAction} (ha : a.writesSchedules = false) (h : s.execute a = some s') :
    s'.tables json = s.tables json := by
  have hsame : ∀ t, t = .backupJobs ∨ t = .schedules → s'.contents t = s.contents t := by
    intro t ht
    have hkeep : ∀ {u : Table} {rows : List Row}, u ≠ .backupJobs → u ≠ .schedules →
        Function.update s.contents u rows t = s.contents t := by
      intro u rows hjobs hschedules
      refine Function.update_of_ne ?_ _ _
      rcases ht with rfl | rfl
      · exact hjobs.symm
      · exact hschedules.symm
    obtain ⟨q, now, rfl, hrun, -⟩ | ⟨st, rfl, hexec, -⟩ := Server.execute_eq_some h
    · obtain ⟨-, heq⟩ := Schema.execute_eq_some_iff.1 (Query.run_eq_some hrun).2
      rw [← heq]
      cases q with
      | upsertDevice deviceId name platform hostname =>
        simp only [ClientStatement.query, Query.upsertDevice, upsertStatement]
        split <;> exact hkeep (by decide) (by decide)
      | updateDeviceHeartbeat => exact hkeep (by decide) (by decide)
      | updateScheduleLastRun => cases ha
      | createRun | updateRun => exact hkeep (by decide) (by decide)
    · obtain ⟨-, heq⟩ := Schema.execute_eq_some_iff.1 hexec
      rw [← heq]
      cases st with
      | insert u row =>
        simp only [ServerAction.writesSchedules, Bool.or_eq_false_iff, beq_eq_false_iff_ne] at ha
        exact hkeep ha.1 ha.2
      | update u p values =>
        simp only [ServerAction.writesSchedules, Bool.or_eq_false_iff, beq_eq_false_iff_ne] at ha
        exact hkeep ha.1 ha.2
      | delete u p =>
        have hu : u = .runs ∨ u = .settings := by
          simp only [ServerAction.writesSchedules] at ha
          cases u <;> simp at ha ⊢
        refine Schema.delete_eq_self hs (contents_nodup hs t) fun r _ hdep => ?_
        have htu := depends_table hu hdep
        rcases hu with rfl | rfl <;> rcases ht with rfl | rfl <;> cases htu
  rw [Server.tables, Server.tables, hsame _ (.inl rfl), hsame _ (.inr rfl)]

/-! ## Schedulers on the server -/

/-- `get_schedules_for_device`. -/
def Server.getSchedulesForDevice (s : Server) (deviceId : String) :
    Except DecodeError (List Schedule) :=
  (s.database.getSchedulesForDevice deviceId).map fun _ =>
    (s.database.scheduleRows deviceId).map Row.toSchedule

/-- The statement an effect sends to the server. -/
def Effect.statement : Effect → Option ClientStatement
  | .updateRows jobId last next => some (.updateScheduleLastRun jobId last next)
  | _ => none

/-- The statement a step of a scheduler sends to the server. -/
def FleetClient.statement (c : FleetClient) : SchedulerAction → Option ClientStatement
  | .reloadEffect =>
    match c.reloading with
    | .locked (e :: _) => e.statement
    | _ => none
  | .effect => c.pending.head?.bind Effect.statement
  | _ => none

/-- A step of a scheduler; the server's clock reads `now`. -/
def FleetClient.onServer (cron : CronCrate) (s : Server) (c : FleetClient) (now : DateTime)
    (a : SchedulerAction) : Option (Server × FleetClient) :=
  match a with
  | .select =>
    match c.reloading, s.getSchedulesForDevice c.deviceId with
    | .idle, .ok rows => some (s, { c with reloading := .selected rows })
    | _, _ => none
  | a =>
    -- the other steps read no table
    match FleetClient.step cron ⟨[], []⟩ c a, c.statement a with
    | none, _ => none
    | some (_, c'), none => some (s, c')
    | some (_, c'), some q => (s.execute (.client q now)).map fun s' => (s', c')

/-- The schedulers of a fleet on one server. -/
abbrev ServerFleet := Interleaving Server FleetClient

inductive FleetAction where
  | client (i : Nat) (a : SchedulerAction) (now : DateTime)
  /-- Anything else that happens on the server. -/
  | other (a : ServerAction)

def ServerFleet.step (cron : CronCrate) (s : ServerFleet) : FleetAction → Option ServerFleet
  | .client i a now => Interleaving.step (fun sv c a => c.onServer cron sv now a) s (i, a)
  | .other a => (s.shared.step a).map fun sv => ⟨sv, s.parts⟩

/-- The steps of the schedulers. -/
def FleetAction.event : FleetAction → Option (Nat × SchedulerAction)
  | .client i a _ => some (i, a)
  | .other _ => none

/-- What a statement of a scheduler does to the tables. -/
def Tables.after (db : Tables) : Option ClientStatement → Tables
  | some (.updateScheduleLastRun jobId last next) =>
    ⟨db.jobs, updateScheduleLastRun jobId last next db.rows⟩
  | _ => db

/-- Apart from the SELECT, what a step does to the client does not depend on the tables, and what
    it does to the tables is its statement. -/
theorem FleetClient.step_eq_statement (cron : CronCrate) (db : Tables) (c : FleetClient)
    {a : SchedulerAction} (ha : a ≠ .select) :
    c.step cron db a =
      (c.step cron ⟨[], []⟩ a).map fun p => (db.after (c.statement a), p.2) := by
  cases a with
  | select => exact absurd rfl ha
  | lock env =>
    cases hr : c.reloading <;>
      simp [FleetClient.step, SharedScheduler.step, FleetClient.on, SharedScheduler.tables,
        SharedScheduler.client, FleetClient.statement, Tables.after, hr]
  | reloadEffect =>
    cases hr : c.reloading with
    | locked es =>
      cases es with
      | nil => simp [FleetClient.step, SharedScheduler.step, FleetClient.on, hr]
      | cons e rest =>
        cases e <;>
          simp [FleetClient.step, SharedScheduler.step, FleetClient.on, SharedScheduler.tables,
            SharedScheduler.client, FleetClient.statement, Effect.statement, Tables.after,
            World.apply, hr]
    | _ => simp [FleetClient.step, SharedScheduler.step, FleetClient.on, hr]
  | unlock =>
    cases hr : c.reloading with
    | locked es =>
      cases es <;>
        simp [FleetClient.step, SharedScheduler.step, FleetClient.on, SharedScheduler.tables,
          SharedScheduler.client, FleetClient.statement, Tables.after, hr]
    | _ => simp [FleetClient.step, SharedScheduler.step, FleetClient.on, hr]
  | check t =>
    by_cases hok : c.pending = [] ∧ c.reloading.free = true ∧ t.order.Perm c.schedules.ids
    · have hpos : ∀ db : Tables, (c.on db).step cron c.deviceId (.check t) =
          some { c.on db with pending := checkSchedules cron (c.on db).world t } :=
        fun _ => if_pos hok
      rw [FleetClient.step, FleetClient.step, hpos, hpos]
      rfl
    · have hneg : ∀ db : Tables, (c.on db).step cron c.deviceId (.check t) = none :=
        fun _ => if_neg hok
      rw [FleetClient.step, FleetClient.step, hneg, hneg]
      rfl
  | effect =>
    cases hp : c.pending with
    | nil => simp [FleetClient.step, SharedScheduler.step, FleetClient.on, hp]
    | cons e rest =>
      by_cases hheld : e.onMap = true ∧ c.reloading.free = false
      · have hwaits : ∀ db : Tables, (c.on db).step cron c.deviceId .effect = none := by
          intro db
          simp only [SharedScheduler.step, FleetClient.on, hp]
          exact if_pos hheld
        rw [FleetClient.step, FleetClient.step, hwaits, hwaits]
        rfl
      · have hgoes : ∀ db : Tables, (c.on db).step cron c.deviceId .effect = some { c.on db with
            world := (c.on db).world.apply e, pending := rest, past := c.past ++ [e] } := by
          intro db
          simp only [SharedScheduler.step, FleetClient.on, hp]
          exact if_neg hheld
        rw [FleetClient.step, FleetClient.step, hgoes, hgoes, FleetClient.statement, hp]
        cases e <;> rfl

theorem Effect.statement_cases (e : Effect) : e.statement = none ∨
    ∃ jobId last next, e.statement = some (.updateScheduleLastRun jobId last next) := by
  cases e with
  | updateRows jobId last next => exact .inr ⟨jobId, last, next, rfl⟩
  | send | advance | clear | insert => exact .inl rfl

/-- A scheduler sends nothing but the UPDATE of its schedules. -/
theorem FleetClient.statement_cases (c : FleetClient) (a : SchedulerAction) :
    c.statement a = none ∨
      ∃ jobId last next, c.statement a = some (.updateScheduleLastRun jobId last next) := by
  unfold FleetClient.statement
  split
  · split
    · exact Effect.statement_cases _
    · exact .inl rfl
  · cases c.pending.head? with
    | none => exact .inl rfl
    | some e => exact e.statement_cases
  · exact .inl rfl

/-- What a SELECT that succeeds returns. -/
theorem Server.getSchedulesForDevice_ok {s : Server} {deviceId : String} {rows : List Schedule}
    (h : s.getSchedulesForDevice deviceId = .ok rows) :
    rows = (s.database.scheduleRows deviceId).map Row.toSchedule := by
  unfold Server.getSchedulesForDevice at h
  cases hrows : s.database.getSchedulesForDevice deviceId with
  | error e =>
    rw [hrows] at h
    cases h
  | ok vss =>
    rw [hrows] at h
    exact (Except.ok.inj h).symm

/-- A step that is no SELECT: what it does to the client, and its statement. -/
theorem FleetClient.onServer_eq (cron : CronCrate) (s : Server) (c : FleetClient) (now : DateTime)
    {a : SchedulerAction} (ha : a ≠ .select) :
    c.onServer cron s now a =
      match c.step cron ⟨[], []⟩ a, c.statement a with
      | none, _ => none
      | some (_, c'), none => some (s, c')
      | some (_, c'), some q => (s.execute (.client q now)).map fun s' => (s', c') := by
  cases a with
  | select => exact absurd rfl ha
  | lock | reloadEffect | unlock | check | effect => rfl

section Refinement

variable {json : String → Json} {cron : CronCrate}

/-- The SELECT of a scheduler, on the tables. -/
theorem FleetClient.step_select {db : Tables} {c : FleetClient} (h : c.reloading = .idle) :
    c.step cron db .select = some (db, { c with
      reloading := .selected (RBackup2.getSchedulesForDevice db.jobs db.rows c.deviceId) }) := by
  simp [FleetClient.step, SharedScheduler.step, FleetClient.on, SharedScheduler.tables,
    SharedScheduler.client, h]

/-- **A step of a scheduler on the server is its step on the tables.** -/
theorem FleetClient.onServer_simulates (json : String → Json) {s s' : Server}
    (hs : schema.Valid s.contents) {c c' : FleetClient} {now : DateTime} {a : SchedulerAction}
    (h : c.onServer cron s now a = some (s', c')) :
    c.step cron (s.tables json) a = some (s'.tables json, c') ∧ schema.Valid s'.contents := by
  by_cases ha : a = .select
  · subst ha
    simp only [FleetClient.onServer] at h
    split at h
    · rename_i rows hidle hrows
      cases h
      rw [FleetClient.step_select hidle, ← scheduleRows_toSchedule json hs,
        Server.getSchedulesForDevice_ok hrows]
      exact ⟨rfl, hs⟩
    · cases h
  · have hstep := FleetClient.step_eq_statement cron (s.tables json) c ha
    rw [FleetClient.onServer_eq _ _ _ _ ha] at h
    cases hmem : c.step cron ⟨[], []⟩ a with
    | none =>
      rw [hmem] at h
      cases h
    | some p =>
      rw [hmem] at h hstep
      rw [hstep]
      rcases c.statement_cases a with hnone | ⟨jobId, last, next, hsome⟩
      · rw [hnone] at h
        rw [hnone]
        cases h
        exact ⟨rfl, hs⟩
      · rw [hsome] at h
        rw [hsome]
        obtain ⟨s₁, hexec, heq⟩ := Option.map_eq_some_iff.1 h
        cases heq
        rw [tables_update json hs hexec]
        exact ⟨rfl, Server.execute_valid hs hexec⟩

/-- **A step of a scheduler on the tables is a step on the server**, if the rows it selects are
    decoded. -/
theorem FleetClient.onServer_of_step {s : Server} (hs : schema.Valid s.contents)
    (hread : AllReadable s.contents) {c c' : FleetClient} {db' : Tables} {a : SchedulerAction}
    (h : c.step cron (s.tables json) a = some (db', c')) (now : DateTime) :
    ∃ s', c.onServer cron s now a = some (s', c') ∧ s'.tables json = db' ∧
      schema.Valid s'.contents ∧ AllReadable s'.contents := by
  by_cases ha : a = .select
  · subst ha
    have hidle : c.reloading = .idle := by
      obtain ⟨t, ht, -, -, -, -⟩ := FleetClient.step_eq h
      obtain ⟨-, hr, -⟩ | ⟨env, rows, hact, -⟩ | ⟨e, rest, hact, -⟩ | ⟨hact, -⟩ | ⟨t, hact, -⟩ |
        ⟨e, rest, hact, -⟩ := SharedScheduler.step_cases ht
      · exact hr
      all_goals cases hact
    have hread' : AllReadable s.database.contents := by
      rwa [Server.database, Database.contents_ofContents]
    obtain ⟨vss, hvss⟩ :=
      (hread'.decodes (Server.admitted_of_valid hs) c.deviceId 0 0).schedules
    have hrows : s.getSchedulesForDevice c.deviceId =
        .ok ((s.database.scheduleRows c.deviceId).map Row.toSchedule) := by
      rw [Server.getSchedulesForDevice, hvss]
      rfl
    rw [FleetClient.step_select hidle, ← scheduleRows_toSchedule json hs] at h
    cases h
    refine ⟨s, ?_, rfl, hs, hread⟩
    simp only [FleetClient.onServer, hidle, hrows]
  · rw [FleetClient.step_eq_statement cron _ c ha] at h
    obtain ⟨⟨db, c₁⟩, hmem, heq⟩ := Option.map_eq_some_iff.1 h
    cases heq
    rw [FleetClient.onServer_eq _ _ _ _ ha, hmem]
    rcases c.statement_cases a with hnone | ⟨jobId, last, next, hsome⟩
    · rw [hnone]
      exact ⟨s, rfl, rfl, hs, hread⟩
    · rw [hsome]
      obtain ⟨s', hexec⟩ := updateScheduleLastRun_accepted hs now last jobId next
      refine ⟨s', by simp [hexec], tables_update json hs hexec, Server.execute_valid hs hexec, ?_⟩
      obtain ⟨q, t, -, hrun, -⟩ | ⟨st, hst, -⟩ := Server.execute_eq_some hexec
      · exact hread.execute (keepsReadable_query s t q) (Query.run_eq_some hrun).2
      · cases hst

/-- A step of the fleet on the server, on the tables. -/
theorem ServerFleet.step_simulates (json : String → Json) {s s' : ServerFleet}
    (hs : schema.Valid s.shared.contents) {a : FleetAction}
    (ha : ∀ b, a = .other b → b.writesSchedules = false)
    (h : s.step cron a = some s') :
    exec (Fleet.step cron) ⟨s.shared.tables json, s.parts⟩ a.event.toList =
        some ⟨s'.shared.tables json, s'.parts⟩ ∧ schema.Valid s'.shared.contents := by
  cases a with
  | client i b now =>
    simp only [ServerFleet.step] at h
    obtain ⟨c, sv, c', hi, hstep, rfl⟩ := Interleaving.step_eq h
    obtain ⟨hon, hvalid⟩ := FleetClient.onServer_simulates json hs hstep
    have hi' : s.parts[i]? = some c := hi
    refine ⟨exec_cons.2 ⟨_, ?_, rfl⟩, hvalid⟩
    simp only [Fleet.step, Interleaving.step, hi', hon, Option.map_some]
  | other b =>
    simp only [ServerFleet.step] at h
    obtain ⟨sv, hsv, rfl⟩ := Option.map_eq_some_iff.1 h
    refine ⟨?_, Server.step_valid hs hsv⟩
    have hsame : sv.tables json = s.shared.tables json := by
      rcases Server.step_eq hsv with rfl | hexec
      · rfl
      · exact tables_other hs (ha b rfl) hexec
    rw [hsame]
    rfl

end Refinement

/-- **The schedulers on the server are the schedulers on the tables.**  Whatever statements clients
    send and whatever anybody else does to the other tables in between, the schedulers take the
    steps they take on the tables of structs.  Where no row has a NULL the structs have no place
    for, every run they have there they also have on the server, which decodes every row they
    select and refuses none of their statements. -/
theorem fleet_on_server (json : String → Json) (cron : CronCrate) {s : Server}
    (hs : s.database.Admitted) (clients : List FleetClient) :
    (∀ (as : List FleetAction) (s' : ServerFleet),
      (∀ a, .other a ∈ as → a.writesSchedules = false) →
      exec (ServerFleet.step cron) ⟨s, clients⟩ as = some s' →
      exec (Fleet.step cron) ⟨s.tables json, clients⟩ (as.filterMap FleetAction.event) =
        some ⟨s'.shared.tables json, s'.parts⟩) ∧
    (AllReadable s.contents → ∀ (as : List (Nat × SchedulerAction)) (f : Fleet),
      exec (Fleet.step cron) ⟨s.tables json, clients⟩ as = some f → ∀ now : DateTime,
      ∃ s' : ServerFleet, exec (ServerFleet.step cron) ⟨s, clients⟩
        (as.map fun a => .client a.1 a.2 now) = some s' ∧
        f = ⟨s'.shared.tables json, s'.parts⟩) := by
  have hvalid := Server.valid_of_admitted hs
  constructor
  · intro as s' hothers h
    have hsim : ∃ f : Fleet, exec (Fleet.step cron) ⟨s.tables json, clients⟩
        (as.filterMap FleetAction.event) = some f ∧ schema.Valid s'.shared.contents ∧
          f = ⟨s'.shared.tables json, s'.parts⟩ := by
      refine exec_stuttering (G := fun a => ∀ b, a = .other b → b.writesSchedules = false)
        (R := fun (s : ServerFleet) (f : Fleet) => schema.Valid s.shared.contents ∧
          f = ⟨s.shared.tables json, s.parts⟩) ?_ ⟨hvalid, rfl⟩
        (fun a ha b hb => hothers b (hb ▸ ha)) h
      rintro s f a s' ⟨hs, rfl⟩ ha hstep
      obtain ⟨hexec, hvalid'⟩ := ServerFleet.step_simulates json hs ha hstep
      exact ⟨_, hexec, hvalid', rfl⟩
    obtain ⟨f, hf, -, rfl⟩ := hsim
    exact hf
  · intro hread as f h now
    have hsim : ∃ s' : ServerFleet, exec (ServerFleet.step cron) ⟨s, clients⟩
        (as.filterMap fun a => some (.client a.1 a.2 now)) = some s' ∧
        schema.Valid s'.shared.contents ∧ AllReadable s'.shared.contents ∧
          f = ⟨s'.shared.tables json, s'.parts⟩ := by
      refine exec_stuttering (G := fun _ => True) (R := fun (f : Fleet) (s : ServerFleet) =>
        schema.Valid s.shared.contents ∧ AllReadable s.shared.contents ∧
          f = ⟨s.shared.tables json, s.parts⟩) ?_ ⟨hvalid, hread, rfl⟩ (fun _ _ => trivial) h
      rintro f s a f' ⟨hs, hread, rfl⟩ - hstep
      obtain ⟨c, db', c', hi, hpart, rfl⟩ := Interleaving.step_eq hstep
      obtain ⟨s', hon, htables, hvalid', hread'⟩ :=
        FleetClient.onServer_of_step hs hread hpart now
      have hi' : s.parts[a.1]? = some c := hi
      refine ⟨⟨s', s.parts.set a.1 c'⟩, exec_cons.2 ⟨_, ?_, rfl⟩, hvalid', hread', by rw [htables]⟩
      simp only [ServerFleet.step, Interleaving.step, hi', hon, Option.map_some]
    obtain ⟨s', hs', -, -, hf⟩ := hsim
    exact ⟨s', by rw [← List.filterMap_eq_map']; exact hs', hf⟩

/-- An hourly schedule of the job, as an administrator inserts it. -/
def scheduleRow (now : DateTime) (id : Int) (jobId : Uuid) : Row :=
  Table.schedules.newRow now [("id", .int id), ("job_id", .uuid jobId),
    ("schedule_type", .text "interval"), ("interval_seconds", .int 3600)]

/-- A server with a device, its job and a schedule of it. -/
def Server.scheduled : Server :=
  Server.sample.after [.other (.insert .schedules (scheduleRow 0 1 1))]

theorem Server.scheduled_valid : schema.Valid Server.scheduled.contents :=
  Server.valid_of_exec Server.sample_valid (Server.exec_after _ _)

/-- A first load, and a backup that begins in the middle of it. -/
def sampleLoad : List FleetAction :=
  [.client 0 .select 0, .client 0 (.lock ⟨.ok (), fun _ => seconds 100, fun _ => .done⟩) 0,
    .client 0 .reloadEffect 0, .other (.client (.createRun 1 "blade" "manual") 0),
    .client 0 .reloadEffect 0, .client 0 .reloadEffect 0, .client 0 .unlock 0]

theorem fleet_on_server_load :
    ∃ s', exec (ServerFleet.step .everyMinute) ⟨.scheduled, [.start "blade"]⟩ sampleLoad = some s' ∧
      (s'.shared.tables fun _ => .null).rows.map Schedule.nextRunAt = [some (seconds 3700)] ∧
      exec (Fleet.step .everyMinute) ⟨Server.scheduled.tables fun _ => .null, [.start "blade"]⟩
        (sampleLoad.filterMap FleetAction.event) =
        some ⟨s'.shared.tables fun _ => .null, s'.parts⟩ := by
  have hsome : (exec (ServerFleet.step .everyMinute) ⟨.scheduled, [.start "blade"]⟩
      sampleLoad).isSome = true := by decide +kernel
  have hend : ∀ s' ∈ exec (ServerFleet.step .everyMinute) ⟨.scheduled, [.start "blade"]⟩ sampleLoad,
      (s'.shared.tables fun _ => .null).rows.map Schedule.nextRunAt = [some (seconds 3700)] := by
    decide +kernel
  obtain ⟨s', h⟩ := Option.isSome_iff_exists.1 hsome
  refine ⟨s', h, hend s' h, (fleet_on_server (fun _ => .null) .everyMinute
    (Server.admitted_of_valid Server.scheduled_valid) [.start "blade"]).1 _ _ (fun a ha => ?_) h⟩
  simp only [sampleLoad, List.mem_cons, reduceCtorEq, List.not_mem_nil, or_false, false_or,
    FleetAction.other.injEq] at ha
  rw [ha]
  rfl

end RBackup2
