import RBackup2.Backup.Closed
import RBackup2.Scheduler.OnServer

/-!
# Which statements the server takes

A client learns that the server refuses a statement from an error, and most callers only log it.
Whether it does is decided by the text of the statement and the rows there are.

* `ClientStatement.Sent` — the statements as the client has them.
* `createRun_accepted_iff`, `updateRun_taken_iff` — the INSERT and the UPDATE of a run.
* `ClientStatement.Taken` — what the server asks of each of the statements.
* `statements_taken_iff` — exactly these are taken, in every database there can be.
-/

set_option autoImplicit false

namespace RBackup2

open Sql Transition

/-! ## The INSERT of a run -/

/-- The row `create_run` adds. -/
def runRow (now : DateTime) (id : Int) (jobId : Uuid) (deviceId triggeredBy : String) : Row :=
  Table.runs.newRow now
    [("id", .int id), ("job_id", .uuid jobId), ("device_id", .text deviceId),
      ("start_time", .timestamp now), ("status", .text "running"),
      ("triggered_by", .text triggeredBy)]

theorem fits_runRow {now : DateTime} {id : Int} {jobId : Uuid} {deviceId triggeredBy : String} :
    schema.Fits .runs (runRow now id jobId deviceId triggeredBy) ↔
      (-2 ^ 31 ≤ id ∧ id < 2 ^ 31) ∧ deviceId.length ≤ 255 ∧ triggeredBy.length ≤ 50 := by
  have hcheck : schema.check .runs (runRow now id jobId deviceId triggeredBy) = true :=
    of_decide_eq_true rfl
  have hadm : Admits runsTable (runRow now id jobId deviceId triggeredBy) ↔
      (-2 ^ 31 ≤ id ∧ id < 2 ^ 31) ∧ deviceId.length ≤ 255 ∧ triggeredBy.length ≤ 50 := by
    have hstatus : "running".length ≤ 50 := by decide
    simp [Admits, runsTable, runRow, Table.newRow, Table.defaults, Row.assign, Row.empty, notNull,
      nullable, List.lookup_cons, List.lookup_nil, Value.hasType, hstatus]
  rw [Schema.Fits, and_iff_left hcheck]
  exact hadm

theorem resolves_runRow {c : Contents Table} {now : DateTime} {id : Int} {jobId : Uuid}
    {deviceId triggeredBy : String} :
    schema.Resolves c.rows .runs (runRow now id jobId deviceId triggeredBy) ↔
      (∃ j ∈ c .backupJobs, j "id" = .uuid jobId) ∧ ∃ d ∈ c .devices, d "id" = .text deviceId := by
  have hrefs : Table.runs.references = [("job_id", .backupJobs), ("device_id", .devices)] := rfl
  have hjob : runRow now id jobId deviceId triggeredBy "job_id" = .uuid jobId := rfl
  have hdevice : runRow now id jobId deviceId triggeredBy "device_id" = .text deviceId := rfl
  rw [resolves_iff, hrefs]
  simp [References, hjob, hdevice]

/-- **Exactly when the server takes the INSERT of a run.** -/
theorem createRun_accepted_iff {s : Server} (hs : schema.Valid s.contents) (now : DateTime)
    (jobId : Uuid) {deviceId triggeredBy : String} (hdevice : deviceId.length ≤ 255)
    (htrigger : triggeredBy.length ≤ 50) :
    (∃ s', s.execute (.client (.createRun jobId deviceId triggeredBy) now) = some s') ↔
      (WithoutNul deviceId ∧ WithoutNul triggeredBy) ∧
        ((∃ j ∈ s.contents .backupJobs, j "id" = .uuid jobId) ∧
          ∃ d ∈ s.contents .devices, d "id" = .text deviceId) ∧
        (-2 ^ 31 ≤ s.nextRunId ∧ s.nextRunId < 2 ^ 31) ∧
        ∀ r ∈ s.records, r.id ≠ s.nextRunId := by
  have hsend : (Query.createRun now s.nextRunId jobId deviceId triggeredBy).params.all sendable =
      true ↔ WithoutNul deviceId ∧ WithoutNul triggeredBy := by
    simp [Query.createRun, sendable, WithoutNul]
  have hfree : (∀ r ∈ s.contents .runs, r "id" ≠ .int s.nextRunId) ↔
      ∀ r ∈ s.records, r.id ≠ s.nextRunId := by
    rw [Server.records, List.forall_mem_map]
    refine forall₂_congr fun r hr => not_congr ?_
    rw [toRun_id (hs.fits .runs r hr).1, Value.int.injEq]
  have hchecks : schema.Checks s.contents
      ((Query.createRun now s.nextRunId jobId deviceId triggeredBy).statement s.contents) ↔
      schema.Accepts s.contents .runs (runRow now s.nextRunId jobId deviceId triggeredBy) ∧
        ∀ r ∈ s.contents .runs, r "id" ≠ .int s.nextRunId :=
    and_congr_right fun haccept => distinct_insert_iff hs rfl haccept.1.1
  rw [Server.accepts_iff]
  simp only [ClientStatement.query]
  rw [hsend, hchecks, Schema.Accepts, fits_runRow, resolves_runRow, hfree]
  tauto

/-! ## The UPDATE of a run -/

/-- The server takes the texts as parameters. -/
def RunUpdate.Sendable (u : RunUpdate) : Prop :=
  (∀ o ∈ [u.errorMessage, u.resticOutput, u.resticErrors], ∀ text ∈ o, WithoutNul text) ∧
    ∀ text ∈ u.snapshotId, WithoutNul text

theorem RunUpdate.Fits.sendable {u : RunUpdate} {seconds : Int} (h : u.Fits seconds) :
    u.Sendable :=
  ⟨h.texts, fun text ht => (h.snapshotId text ht).2⟩

/-- The id of a record is its primary key. -/
theorem record_eq {s : Server} (hs : schema.Valid s.contents) {x r : Run} (hx : x ∈ s.records)
    (hr : r ∈ s.records) (hid : x.id = r.id) : x = r := by
  obtain ⟨a, ha, rfl⟩ := List.mem_map.1 hx
  obtain ⟨b, hb, rfl⟩ := List.mem_map.1 hr
  have hadm : ∀ row ∈ s.contents .runs, Admits runsTable row := fun row hrow =>
    (hs.fits .runs row hrow).1
  have hkey : a "id" = b "id" := by rw [toRun_id (hadm a ha), hid, toRun_id (hadm b hb)]
  rw [hs.eq_of_key ha hb hkey (id_ne_null (t := .runs) (hadm a ha))]

/-- **Exactly when the server takes the UPDATE of a run**, whether the record is there or not. -/
theorem updateRun_taken_iff {s : Server} (hs : schema.Valid s.contents) (now endTime : DateTime)
    (runId : Int) {u : RunUpdate} (hstatus : u.status = "success" ∨ u.status = "failed") :
    (∃ s', s.execute (.client (.updateRun runId endTime u) now) = some s') ↔
      u.Sendable ∧ ∀ r ∈ s.records, r.id = runId →
        u.Fits (extractEpoch (timestamptz endTime - r.startTime)) := by
  by_cases hthere : ∃ r ∈ s.records, r.id = runId
  · obtain ⟨r, hr, rfl⟩ := hthere
    rw [updateRun_accepted_iff hs hr now endTime hstatus]
    constructor
    · refine fun hfits => ⟨hfits.sendable, fun x hx hid => ?_⟩
      rwa [record_eq hs hx hr hid]
    · exact fun h => h.2 r hr rfl
  · -- the statement concerns no row
    have hnul : WithoutNul u.status := by
      rcases hstatus with h | h <;> rw [h] <;> decide
    have hrows : ∀ row ∈ s.contents .runs, (row "id" == .int runId) = false := by
      intro row hrow
      rw [beq_eq_false_iff_ne, toRun_id (hs.fits .runs row hrow).1]
      intro heq
      exact hthere ⟨Row.toRun row, List.mem_map_of_mem hrow, Value.int.inj heq⟩
    have hchecks : schema.Checks s.contents ((Query.updateRun runId endTime u).statement
        s.contents) := by
      refine (Schema.checks_update_iff hs fun r _ => ?_).2 fun r hr hp => ?_
      · exact runValues_keys endTime u r
      · exact absurd hp (by rw [hrows r hr]; decide)
    rw [Server.accepts_iff]
    simp only [ClientStatement.query]
    rw [updateRun_sendable hnul]
    exact ⟨fun h => ⟨h.1, fun r hr hid => absurd ⟨r, hr, hid⟩ hthere⟩, fun h => ⟨h.1, hchecks⟩⟩

/-! ## All statements -/

/-- The statement as the client has it: a run has the device id of its job's row and ends as a
    success or a failure, and its snapshot id is not too long by blanks only.  Nothing calls
    `update_device_heartbeat`. -/
def ClientStatement.Sent : ClientStatement → Prop
  | .updateDeviceHeartbeat _ _ _ => False
  | .createRun _ deviceId triggeredBy => deviceId.length ≤ 255 ∧ triggeredBy.length ≤ 50
  | .updateRun _ _ u => (u.status = "success" ∨ u.status = "failed") ∧
      ∀ id ∈ u.snapshotId, cutBlanks 255 id = id
  | _ => True

/-- What the server asks of a statement. -/
def ClientStatement.Taken (s : Server) : ClientStatement → Prop
  | .upsertDevice deviceId name platform hostname => Registrable deviceId name platform hostname
  | .updateDeviceHeartbeat _ _ _ => False
  | .updateScheduleLastRun _ _ _ => True
  | .createRun jobId deviceId triggeredBy => (WithoutNul deviceId ∧ WithoutNul triggeredBy) ∧
      ((∃ j ∈ s.contents .backupJobs, j "id" = .uuid jobId) ∧
        ∃ d ∈ s.contents .devices, d "id" = .text deviceId) ∧
      (-2 ^ 31 ≤ s.nextRunId ∧ s.nextRunId < 2 ^ 31) ∧ ∀ r ∈ s.records, r.id ≠ s.nextRunId
  | .updateRun runId endTime u => u.Sendable ∧ ∀ r ∈ s.records, r.id = runId →
      u.Fits (extractEpoch (timestamptz endTime - r.startTime))

/-- **Which statements the server takes.**  Whatever clients and anybody else insert, update and
    delete before, in any order: the tables keep every constraint, and the server takes exactly the
    statements of a client that have all it asks of them. -/
theorem statements_taken_iff {s s' : Server} (hs : s.database.Admitted) {as : List ServerAction}
    (h : exec Server.step s as = some s') : s'.database.Admitted ∧
      ∀ (q : ClientStatement) (now : DateTime), q.Sent →
        ((∃ s'', s'.execute (.client q now) = some s'') ↔ q.Taken s') := by
  have hvalid : schema.Valid s'.contents :=
    Server.valid_of_exec (Server.valid_of_admitted hs) h
  refine ⟨database_stays_admitted hs h, fun q now hsent => ?_⟩
  cases q with
  | upsertDevice deviceId name platform hostname =>
    exact upsertDevice_accepted_iff hvalid now deviceId name platform hostname
  | updateDeviceHeartbeat => exact hsent.elim
  | updateScheduleLastRun jobId last next =>
    exact iff_of_true (updateScheduleLastRun_accepted hvalid now last jobId next) trivial
  | createRun jobId deviceId triggeredBy =>
    exact createRun_accepted_iff hvalid now jobId hsent.1 hsent.2
  | updateRun runId endTime u => exact updateRun_taken_iff hvalid now endTime runId hsent.1

/-- A run of the job is recorded while its device is there, and refused when the device, and the
    job with it, is deleted. -/
theorem statements_taken_iff_deleted :
    ∃ s s', exec Server.step ⟨(Database.migrated 0).contents, 1⟩ (ServerAction.sample.take 2) =
        some s ∧
      exec Server.step ⟨(Database.migrated 0).contents, 1⟩ (ServerAction.sample.take 4) =
        some s' ∧
      s.database.Admitted ∧ s'.database.Admitted ∧
      (∃ t, s.execute (.client (.createRun 1 "blade" "manual") 0) = some t) ∧
      ¬ ∃ t, s'.execute (.client (.createRun 1 "blade" "manual") 0) = some t := by
  have hsent : (ClientStatement.createRun 1 "blade" "manual").Sent := ⟨by decide, by decide⟩
  have hall : ∀ as : List ServerAction, _ := fun as =>
    statements_taken_iff (s := ⟨(Database.migrated 0).contents, 1⟩) (Database.migrated_admitted 0)
      (Server.exec_after _ as)
  obtain ⟨hadm, htaken⟩ := hall (ServerAction.sample.take 2)
  obtain ⟨hadm', htaken'⟩ := hall (ServerAction.sample.take 4)
  refine ⟨_, _, Server.exec_after _ _, Server.exec_after _ _, hadm, hadm', ?_, ?_⟩
  · exact (htaken _ 0 hsent).2 ⟨⟨by decide, by decide⟩, by decide, by decide, by decide⟩
  · refine fun h => absurd ((htaken' _ 0 hsent).1 h).2.1.1 ?_
    decide

end RBackup2
