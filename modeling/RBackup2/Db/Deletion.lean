import RBackup2.Db.Integrity

/-!
# What is deleted with a device or a job

`ON DELETE CASCADE` in the five tables of the migrations.

* `GoesWithDevice`, `GoesWithJob` — the rows that go with a device and with a job.
* `deleted_with_iff` — a DELETE of the device or of the job removes exactly these, from every
  database there can be.
-/

set_option autoImplicit false

namespace RBackup2

open Sql Transition

/-- The rows of a device: itself, its jobs and settings, the schedules and runs of its jobs, and
    the runs it has made of other jobs. -/
def GoesWithDevice (c : Contents Table) (deviceId : String) : Table → Row → Prop
  | .devices, r => r "id" = .text deviceId
  | .backupJobs, r => r "device_id" = .text deviceId
  | .settings, r => r "device_id" = .text deviceId
  | .schedules, r => ∃ j ∈ c .backupJobs, j "id" = r "job_id" ∧ j "device_id" = .text deviceId
  | .runs, r => r "device_id" = .text deviceId ∨
      ∃ j ∈ c .backupJobs, j "id" = r "job_id" ∧ j "device_id" = .text deviceId

/-- The rows of a job: itself, its schedules and its runs. -/
def GoesWithJob (jobId : Uuid) : Table → Row → Prop
  | .devices, _ => False
  | .backupJobs, r => r "id" = .uuid jobId
  | .settings, _ => False
  | .schedules, r => r "job_id" = .uuid jobId
  | .runs, r => r "job_id" = .uuid jobId

/-- `DELETE FROM devices WHERE id = $1`. -/
def deleteDevice (deviceId : String) : Statement Table :=
  .delete .devices fun r => r "id" == .text deviceId

/-- `DELETE FROM backup_jobs WHERE id = $1`. -/
def deleteJob (jobId : Uuid) : Statement Table :=
  .delete .backupJobs fun r => r "id" == .uuid jobId

/-- A row depends on what is deleted itself, or through one of its references. -/
theorem depends_cases {c : Contents Table} {t u : Table} {p : Row → Bool} {r : Row}
    (h : Schema.Depends schema c t p u r) : (u = t ∧ p r = true) ∨
      ∃ ref ∈ u.references, r ref.1 ≠ .null ∧ ∃ x ∈ c ref.2, x "id" = r ref.1 ∧
        Schema.Depends schema c t p ref.2 x := by
  cases h with
  | deleted hp => exact .inl ⟨rfl, hp⟩
  | refers href hne hx hkey hdep => exact .inr ⟨_, href, hne, _, hx, hkey, hdep⟩

section Device

variable {c : Contents Table} (hc : schema.Valid c) {deviceId : String}

/-- The row depends on the device. -/
abbrev DependsOnDevice (c : Contents Table) (deviceId : String) : Table → Row → Prop :=
  Schema.Depends schema c .devices fun r => r "id" == .text deviceId

theorem dependsOnDevice_devices {r : Row} :
    DependsOnDevice c deviceId .devices r ↔ r "id" = .text deviceId := by
  constructor
  · intro h
    rcases depends_cases h with ⟨-, hp⟩ | ⟨ref, href, -⟩
    · exact eq_of_beq hp
    · cases href
  · exact fun h => .deleted (beq_iff_eq.2 h)

include hc

/-- A row that refers to the device depends on it. -/
theorem dependsOnDevice_of_ref {t : Table} {r : Row} (hr : r ∈ c t)
    (href : ("device_id", Table.devices) ∈ t.references) (hd : r "device_id" = .text deviceId) :
    DependsOnDevice c deviceId t r := by
  have hne : r "device_id" ≠ .null := by
    rw [hd]
    exact nofun
  obtain ⟨x, hx, hkey⟩ := (hc.closed t r hr _ href).resolve_left hne
  have hkey' : x "id" = r "device_id" := hkey
  exact .refers href hne hx hkey (dependsOnDevice_devices.2 (hkey'.trans hd))

theorem dependsOnDevice_backupJobs {j : Row} (hj : j ∈ c .backupJobs) :
    DependsOnDevice c deviceId .backupJobs j ↔ j "device_id" = .text deviceId := by
  constructor
  · intro h
    rcases depends_cases h with ⟨hdev, -⟩ | ⟨ref, href, -, x, -, hkey, hdep⟩
    · cases hdev
    · cases List.mem_singleton.1 href
      rw [← hkey]
      exact dependsOnDevice_devices.1 hdep
  · exact dependsOnDevice_of_ref hc hj (by decide)

/-- A row that refers to a job of the device depends on it. -/
theorem dependsOnDevice_of_job {t : Table} {r j : Row}
    (href : ("job_id", Table.backupJobs) ∈ t.references) (hj : j ∈ c .backupJobs)
    (hkey : j "id" = r "job_id") (hd : j "device_id" = .text deviceId) :
    DependsOnDevice c deviceId t r :=
  .refers href (hkey ▸ id_ne_null (t := .backupJobs) (hc.fits .backupJobs j hj).1) hj hkey
    ((dependsOnDevice_backupJobs hc hj).2 hd)

theorem dependsOnDevice_iff {t : Table} {r : Row} (hr : r ∈ c t) :
    DependsOnDevice c deviceId t r ↔ GoesWithDevice c deviceId t r := by
  cases t with
  | devices => exact dependsOnDevice_devices
  | backupJobs => exact dependsOnDevice_backupJobs hc hr
  | settings =>
    constructor
    · intro h
      rcases depends_cases h with ⟨hdev, -⟩ | ⟨ref, href, -, x, -, hkey, hdep⟩
      · cases hdev
      · cases List.mem_singleton.1 href
        exact hkey.symm.trans (dependsOnDevice_devices.1 hdep)
    · exact dependsOnDevice_of_ref hc hr (by decide)
  | schedules =>
    constructor
    · intro h
      rcases depends_cases h with ⟨hdev, -⟩ | ⟨ref, href, -, j, hj, hkey, hdep⟩
      · cases hdev
      · cases List.mem_singleton.1 href
        exact ⟨j, hj, hkey, (dependsOnDevice_backupJobs hc hj).1 hdep⟩
    · rintro ⟨j, hj, hkey, hd⟩
      exact dependsOnDevice_of_job hc (by decide) hj hkey hd
  | runs =>
    constructor
    · intro h
      rcases depends_cases h with ⟨hdev, -⟩ | ⟨ref, href, -, x, hx, hkey, hdep⟩
      · cases hdev
      · rcases List.mem_cons.1 href with rfl | href
        · exact .inr ⟨x, hx, hkey, (dependsOnDevice_backupJobs hc hx).1 hdep⟩
        · cases List.mem_singleton.1 href
          exact .inl (hkey.symm.trans (dependsOnDevice_devices.1 hdep))
    · rintro (hd | ⟨j, hj, hkey, hd⟩)
      · exact dependsOnDevice_of_ref hc hr (by decide) hd
      · exact dependsOnDevice_of_job hc (by decide) hj hkey hd

end Device

section Job

variable {c : Contents Table} (hc : schema.Valid c) {jobId : Uuid}

/-- The row depends on the job. -/
abbrev DependsOnJob (c : Contents Table) (jobId : Uuid) : Table → Row → Prop :=
  Schema.Depends schema c .backupJobs fun r => r "id" == .uuid jobId

theorem not_dependsOnJob_devices {r : Row} : ¬ DependsOnJob c jobId .devices r := by
  intro h
  rcases depends_cases h with ⟨hdev, -⟩ | ⟨ref, href, -⟩
  · cases hdev
  · cases href

theorem dependsOnJob_backupJobs {j : Row} :
    DependsOnJob c jobId .backupJobs j ↔ j "id" = .uuid jobId := by
  constructor
  · intro h
    rcases depends_cases h with ⟨-, hp⟩ | ⟨ref, href, -, x, -, -, hdep⟩
    · exact eq_of_beq hp
    · cases List.mem_singleton.1 href
      exact absurd hdep not_dependsOnJob_devices
  · exact fun h => .deleted (beq_iff_eq.2 h)

include hc

theorem dependsOnJob_of_ref {t : Table} {r : Row} (hr : r ∈ c t)
    (href : ("job_id", Table.backupJobs) ∈ t.references) (hj : r "job_id" = .uuid jobId) :
    DependsOnJob c jobId t r := by
  have hne : r "job_id" ≠ .null := by
    rw [hj]
    exact nofun
  obtain ⟨x, hx, hkey⟩ := (hc.closed t r hr _ href).resolve_left hne
  have hkey' : x "id" = r "job_id" := hkey
  exact .refers href hne hx hkey (dependsOnJob_backupJobs.2 (hkey'.trans hj))

theorem dependsOnJob_iff {t : Table} {r : Row} (hr : r ∈ c t) :
    DependsOnJob c jobId t r ↔ GoesWithJob jobId t r := by
  cases t with
  | devices => exact ⟨not_dependsOnJob_devices, False.elim⟩
  | backupJobs => exact dependsOnJob_backupJobs
  | settings =>
    refine ⟨fun h => ?_, False.elim⟩
    rcases depends_cases h with ⟨hset, -⟩ | ⟨ref, href, -, x, -, -, hdep⟩
    · cases hset
    · cases List.mem_singleton.1 href
      exact not_dependsOnJob_devices hdep
  | schedules =>
    refine ⟨fun h => ?_, dependsOnJob_of_ref hc hr (by decide)⟩
    rcases depends_cases h with ⟨hset, -⟩ | ⟨ref, href, -, x, -, hkey, hdep⟩
    · cases hset
    · cases List.mem_singleton.1 href
      exact hkey.symm.trans (dependsOnJob_backupJobs.1 hdep)
  | runs =>
    refine ⟨fun h => ?_, dependsOnJob_of_ref hc hr (by decide)⟩
    rcases depends_cases h with ⟨hset, -⟩ | ⟨ref, href, -, x, -, hkey, hdep⟩
    · cases hset
    · rcases List.mem_cons.1 href with rfl | href
      · exact hkey.symm.trans (dependsOnJob_backupJobs.1 hdep)
      · cases List.mem_singleton.1 href
        exact absurd hdep not_dependsOnJob_devices

end Job

/-- **What goes with a device and with a job**, in every database the statements of clients and of
    anybody else lead to: a DELETE of the device removes exactly the device, its jobs and settings,
    the schedules and runs of its jobs and its runs of other jobs; a DELETE of the job exactly the
    job, its schedules and its runs. -/
theorem deleted_with_iff {s s' : Server} (hs : s.database.Admitted) {as : List ServerAction}
    (h : exec Server.step s as = some s') (deviceId : String) (jobId : Uuid) :
    (∃ c, schema.execute s'.contents (deleteDevice deviceId) = some c ∧ ∀ t r,
      r ∈ c t ↔ r ∈ s'.contents t ∧ ¬ GoesWithDevice s'.contents deviceId t r) ∧
    ∃ c, schema.execute s'.contents (deleteJob jobId) = some c ∧ ∀ t r,
      r ∈ c t ↔ r ∈ s'.contents t ∧ ¬ GoesWithJob jobId t r := by
  have hc := Server.valid_of_exec (Server.valid_of_admitted hs) h
  refine ⟨⟨_, Schema.execute_eq_some_iff.2 ⟨trivial, rfl⟩, fun t r => ?_⟩,
    ⟨_, Schema.execute_eq_some_iff.2 ⟨trivial, rfl⟩, fun t r => ?_⟩⟩
  · refine (Schema.mem_delete_iff hc).trans (and_congr_right fun hr => not_congr ?_)
    exact dependsOnDevice_iff hc hr
  · refine (Schema.mem_delete_iff hc).trans (and_congr_right fun hr => not_congr ?_)
    exact dependsOnJob_iff hc hr

/-- A device with a job and a run of it: the DELETE of the device leaves nothing but the settings
    of all. -/
theorem deleted_with_iff_blade :
    ∃ s, exec Server.step ⟨(Database.migrated 0).contents, 1⟩ (ServerAction.sample.take 3) =
        some s ∧ s.database.runs.length = 1 ∧
      ∃ c, schema.execute s.contents (deleteDevice "blade") = some c ∧ ∀ t r,
        r ∈ c t ↔ r ∈ s.contents t ∧ ¬ GoesWithDevice s.contents "blade" t r :=
  ⟨_, Server.exec_after _ _, by decide, (deleted_with_iff
    (s := ⟨(Database.migrated 0).contents, 1⟩) (Database.migrated_admitted 0)
    (Server.exec_after _ _) "blade" 1).1⟩

end RBackup2
