import RBackup2.Config.Logging
import RBackup2.Config.Settings
import RBackup2.Db.Registration
import RBackup2.Scheduler.OnServer

/-!
# Starting a client

`main.rs`'s `run` behind the logger: the pool, the migrations, the registration of the device and
`load_config_from_db`, step by step on the server, with whatever other clients and administrators
do in between.

* `Start.step` — the steps of a start; `Start.step_server` — it writes its registration only.
* `Start.step_started` — how it gets to its end.
* `no_repository_no_start` — where no repository is set, no client gets there.
-/

set_option autoImplicit false

namespace RBackup2

open Sql Transition

/-! ## The steps of a start -/

/-- The text for `cfg!(target_os = …)`. -/
def platform (targetOs : String) : String :=
  if targetOs = "windows" then "windows" else if targetOs = "linux" then "linux" else "unknown"

/-- A way to carry out `ORDER BY device_id NULLS FIRST`. -/
structure SettingSort where
  rows : Database → String → List Row
  order : ∀ (db : Database) (deviceId : String), db.SettingOrder deviceId (rows db deviceId)

/-- Where `run` stands, once the logger is set up. -/
inductive StartPhase where
  | connect
  | migrate
  | register
  | loadJobs
  | loadSchedules (jobs : List BackupJob)
  | loadSettings (jobs : List BackupJob) (schedules : List Schedule)
  /-- The remote configuration is loaded, and has a repository. -/
  | started (config : RemoteConfig)
  | failed (e : AppError)

/-- A client on its way up. -/
structure Start where
  deviceId : String
  targetOs : String
  /-- `hostname::get()`, if it is Unicode. -/
  hostname : Option String
  phase : StartPhase

def Start.init (config : LocalConfig) (targetOs : String) (hostname : Option String) : Start :=
  ⟨config.device.id, targetOs, hostname, .connect⟩

/-- What the environment decides in a step; the text is what sqlx or the server reports. -/
inductive StartEvent where
  /-- The connection string is parsed and a connection opened. -/
  | createPool (r : Except String Unit)
  | runMigrations (r : Except String Unit)
  /-- `refusal` is the server's text if it does not take the statement. -/
  | upsertDevice (o : DbOutcome) (now : DateTime) (refusal : String)
  | getJobs (r : Except String Unit)
  | getSchedules (r : Except String Unit)
  | getSettings (r : Except String Unit) (sort : SettingSort)

def Start.fail (st : Start) (e : AppError) : Start := { st with phase := .failed e }

/-- `get_jobs_for_device`. -/
def Server.getJobsForDevice (json : String → Json) (s : Server) (deviceId : String) :
    Except DecodeError (List BackupJob) :=
  (s.database.getJobsForDevice deviceId).map fun _ =>
    (s.database.jobRows deviceId).map (Row.toBackupJob json)

/-- The registration of a client. -/
def Start.registration (st : Start) : ClientStatement :=
  .upsertDevice st.deviceId st.deviceId (platform st.targetOs) st.hostname

/-- The last step of `load_config_from_db` and the check behind it. -/
def Start.configured (st : Start) (config : Except AppError RemoteConfig) : Start :=
  match config with
  | .error e => st.fail e
  | .ok config =>
    match config.repositoryUrl.filter fun url => url ≠ "" with
    | none => st.fail (.config (.validationFailed
        "Repository URL is not configured in database settings"))
    | some _ => { st with phase := .started config }

/-- A step of `run`. -/
def Start.step (json : String → Json) (s : Server) (st : Start) :
    StartEvent → Option (Server × Start)
  | .createPool r =>
    match st.phase, r with
    | .connect, .error e => some (s, st.fail (.database (.connectionFailed e)))
    | .connect, .ok () => some (s, { st with phase := .migrate })
    | _, _ => none
  | .runMigrations r =>
    match st.phase, r with
    | .migrate, .error e => some (s, st.fail (.database (.migrationFailed e)))
    | .migrate, .ok () => some (s, { st with phase := .register })
    | _, _ => none
  | .upsertDevice o now refusal =>
    match st.phase with
    | .register =>
      match o, s.execute (.client st.registration now) with
      | .failed err, _ => some (s, st.fail (.ofSqlx err))
      | _, none => some (s, st.fail (.ofSqlx refusal))
      | .lost err, some s' => some (s', st.fail (.ofSqlx err))
      | .done, some s' =>
        -- `RETURNING *`
        match s'.database.getDevice (cutBlanks 255 st.deviceId) with
        | .error e => some (s', st.fail (.ofSqlx e.display))
        | .ok none => some (s', st.fail (.ofSqlx
            "no rows returned by a query that expected to return at least one row"))
        | .ok (some _) => some (s', { st with phase := .loadJobs })
    | _ => none
  | .getJobs r =>
    match st.phase, r, s.getJobsForDevice json st.deviceId with
    | .loadJobs, .error e, _ => some (s, st.fail (.ofSqlx e))
    | .loadJobs, .ok (), .error e => some (s, st.fail (.ofSqlx e.display))
    | .loadJobs, .ok (), .ok jobs => some (s, { st with phase := .loadSchedules jobs })
    | _, _, _ => none
  | .getSchedules r =>
    match st.phase, r, s.getSchedulesForDevice st.deviceId with
    | .loadSchedules _, .error e, _ => some (s, st.fail (.ofSqlx e))
    | .loadSchedules _, .ok (), .error e => some (s, st.fail (.ofSqlx e.display))
    | .loadSchedules jobs, .ok (), .ok schedules =>
      some (s, { st with phase := .loadSettings jobs schedules })
    | _, _, _ => none
  | .getSettings r sort =>
    match st.phase, r with
    | .loadSettings _ _, .error e => some (s, st.fail (.ofSqlx e))
    | .loadSettings jobs schedules, .ok () =>
      some (s, st.configured
        (loadConfigFromDb (.ok jobs) (.ok schedules) (sort.rows s.database st.deviceId)))
    | _, _ => none

/-- Clients on their way up, on one server. -/
abbrev Starts := Interleaving Server Start

inductive StartAction where
  | start (i : Nat) (ev : StartEvent)
  /-- Anything else that happens on the server. -/
  | other (a : ServerAction)

def Starts.step (json : String → Json) (s : Starts) : StartAction → Option Starts
  | .start i ev => Interleaving.step (Start.step json) s (i, ev)
  | .other a => (s.shared.step a).map fun sv => ⟨sv, s.parts⟩

/-! ## What a start does -/

/-- A start writes its registration and nothing else. -/
theorem Start.step_server {json : String → Json} {s s' : Server} {st st' : Start}
    {ev : StartEvent} (h : st.step json s ev = some (s', st')) :
    st'.deviceId = st.deviceId ∧
      (s' = s ∨ ∃ now, s.execute (.client st.registration now) = some s') := by
  cases ev with
  | createPool r =>
    simp only [Start.step] at h
    split at h <;> cases h <;> exact ⟨rfl, .inl rfl⟩
  | runMigrations r =>
    simp only [Start.step] at h
    split at h <;> cases h <;> exact ⟨rfl, .inl rfl⟩
  | upsertDevice o now refusal =>
    simp only [Start.step] at h
    split at h
    · split at h
      · cases h
        exact ⟨rfl, .inl rfl⟩
      · cases h
        exact ⟨rfl, .inl rfl⟩
      · rename_i hexec
        cases h
        exact ⟨rfl, .inr ⟨now, hexec⟩⟩
      · rename_i hexec
        split at h <;> cases h <;> exact ⟨rfl, .inr ⟨now, hexec⟩⟩
    · cases h
  | getJobs r =>
    simp only [Start.step] at h
    split at h <;> cases h <;> exact ⟨rfl, .inl rfl⟩
  | getSchedules r =>
    simp only [Start.step] at h
    split at h <;> cases h <;> exact ⟨rfl, .inl rfl⟩
  | getSettings r sort =>
    simp only [Start.step] at h
    split at h
    · cases h
      exact ⟨rfl, .inl rfl⟩
    · cases h
      refine ⟨?_, .inl rfl⟩
      unfold Start.configured
      split
      · rfl
      · split <;> rfl
    · cases h

/-- The configuration has a repository. -/
def HasRepository (config : RemoteConfig) : Prop :=
  ∃ url, config.repositoryUrl = some url ∧ url ≠ ""

/-- A start goes on with what it has loaded exactly if that has a repository. -/
theorem Start.configured_started_iff (st : Start) {r : Except AppError RemoteConfig}
    {config : RemoteConfig} :
    (st.configured r).phase = .started config ↔ r = .ok config ∧ HasRepository config := by
  unfold Start.configured HasRepository
  cases r with
  | error e => simp [Start.fail]
  | ok c =>
    simp only [Except.ok.injEq]
    cases hurl : c.repositoryUrl with
    | none =>
      simp only [Option.filter_none, Start.fail, reduceCtorEq, false_iff]
      rintro ⟨rfl, url, hurl', -⟩
      cases hurl.symm.trans hurl'
    | some url =>
      by_cases hne : url = ""
      · simp only [Option.filter_some, hne, ne_eq, not_true_eq_false, decide_false, Start.fail,
          Bool.false_eq_true, if_false, reduceCtorEq, false_iff]
        rintro ⟨rfl, url', hurl', hne'⟩
        cases hurl.symm.trans hurl'
        exact hne' hne
      · simp only [Option.filter_some, hne, ne_eq, not_false_eq_true, decide_true, if_true,
          StartPhase.started.injEq]
        refine ⟨fun h => ⟨h, url, h ▸ hurl, hne⟩, fun h => h.1⟩

/-- How a start gets to its end. -/
theorem Start.step_started {json : String → Json} {s s' : Server} {st st' : Start}
    {ev : StartEvent} {config : RemoteConfig} (h : st.step json s ev = some (s', st'))
    (hst : st'.phase = .started config) : s' = s ∧ HasRepository config ∧
      ∃ jobs schedules sort, ev = .getSettings (.ok ()) sort ∧
        st.phase = .loadSettings jobs schedules ∧
        loadConfigFromDb (.ok jobs) (.ok schedules) (sort.rows s.database st.deviceId) =
          .ok config := by
  cases ev with
  | createPool r =>
    simp only [Start.step] at h
    split at h <;> cases h <;> cases hst
  | runMigrations r =>
    simp only [Start.step] at h
    split at h <;> cases h <;> cases hst
  | upsertDevice o now refusal =>
    simp only [Start.step] at h
    split at h
    · split at h
      · cases h
        cases hst
      · cases h
        cases hst
      · cases h
        cases hst
      · split at h <;> cases h <;> cases hst
    · cases h
  | getJobs r =>
    simp only [Start.step] at h
    split at h <;> cases h <;> cases hst
  | getSchedules r =>
    simp only [Start.step] at h
    split at h <;> cases h <;> cases hst
  | getSettings r sort =>
    simp only [Start.step] at h
    split at h
    · cases h
      cases hst
    · rename_i jobs schedules hphase
      cases h
      rw [Start.configured_started_iff] at hst
      exact ⟨rfl, hst.2, jobs, schedules, sort, rfl, hphase, hst.1⟩
    · cases h

/-! ## No repository, no start -/

/-- No row sets a repository for the device. -/
def NoRepository (c : Contents Table) (deviceId : String) : Prop :=
  ∀ r ∈ c .settings, Sets r .null "repository_url" ∨ Sets r (.text deviceId) "repository_url" →
    r "value" = .text ""

/-- The action may add or change a setting. -/
def ServerAction.writesSettings : ServerAction → Bool
  | .other (.insert t _) => t == .settings
  | .other (.update t _ _) => t == .settings
  | _ => false

/-- A DELETE may remove settings, and nothing else changes them. -/
theorem settings_other {s s' : Server} {a : ServerAction} (ha : a.writesSettings = false)
    (h : s.execute a = some s') : s'.contents .settings ⊆ s.contents .settings := by
  have hkeep : ∀ {t : Table} {rows : List Row}, t ≠ .settings →
      Function.update s.contents t rows .settings ⊆ s.contents .settings := by
    intro t rows ht
    rw [Function.update_of_ne ht.symm]
    exact List.Subset.refl _
  obtain ⟨q, now, rfl, hrun, -⟩ | ⟨st, rfl, hexec, -⟩ := Server.execute_eq_some h
  · obtain ⟨-, heq⟩ := Schema.execute_eq_some_iff.1 (Query.run_eq_some hrun).2
    rw [← heq]
    cases q with
    | upsertDevice deviceId name platform hostname =>
      simp only [ClientStatement.query, Query.upsertDevice, upsertStatement]
      split <;> exact hkeep (by decide)
    | updateDeviceHeartbeat => exact hkeep (by decide)
    | updateScheduleLastRun => exact hkeep (by decide)
    | createRun | updateRun => exact hkeep (by decide)
  · obtain ⟨-, heq⟩ := Schema.execute_eq_some_iff.1 hexec
    rw [← heq]
    cases st with
    | insert t row => exact hkeep (by simpa [ServerAction.writesSettings] using ha)
    | update t p values => exact hkeep (by simpa [ServerAction.writesSettings] using ha)
    | delete t p => exact (Schema.delete_sublist t p s.contents .settings).subset

/-- Without a repository for the device, what a start loads has none. -/
theorem not_hasRepository {db : Database} (hadm : db.Admitted) {deviceId : String} {rows : List Row}
    (hrows : db.SettingOrder deviceId rows) (hno : NoRepository db.contents deviceId)
    {jobs : List BackupJob} {schedules : List Schedule} {config : RemoteConfig}
    (h : loadConfigFromDb (.ok jobs) (.ok schedules) rows = .ok config) :
    ¬ HasRepository config := by
  rintro ⟨url, hurl, hne⟩
  obtain ⟨config', hconfig, hlookup⟩ := load_config_lookup (hrows.admits hadm) jobs schedules
  cases h.symm.trans hconfig
  have hfind : (rows.reverse.find? fun r => textAt r "key" == "repository_url").map
      (fun r => textAt r "value") = some url := (hlookup "repository_url").symm.trans hurl
  obtain ⟨r, hr, hval⟩ := Option.map_eq_some_iff.1 hfind
  obtain ⟨hmem, hsets, hvalue⟩ := sets_of_find hadm hrows hr
  have hempty := hno r hmem hsets
  rw [hvalue, hval, Value.text.injEq] at hempty
  exact hne hempty

/-- No start has come through, and none has a repository. -/
structure Starts.Stuck (s : Starts) : Prop where
  valid : schema.Valid s.shared.contents
  noRepository : ∀ st ∈ s.parts, NoRepository s.shared.contents st.deviceId
  phase : ∀ st ∈ s.parts, ∀ config, st.phase ≠ .started config

theorem Starts.Stuck.step {json : String → Json} {s s' : Starts} {a : StartAction} (hs : s.Stuck)
    (ha : ∀ b, a = .other b → b.writesSettings = false) (h : s.step json a = some s') :
    s'.Stuck := by
  have hfewer : ∀ {sv : Server} {d : String}, sv.contents .settings ⊆ s.shared.contents .settings →
      NoRepository s.shared.contents d → NoRepository sv.contents d :=
    fun hsub hno r hr => hno r (hsub hr)
  cases a with
  | start i ev =>
    simp only [Starts.step] at h
    obtain ⟨st, sv, st', hi, hstep, rfl⟩ := Interleaving.step_eq h
    have hst : st ∈ s.parts := List.mem_of_getElem? hi
    obtain ⟨hdevice, hserver⟩ := Start.step_server hstep
    have hvalid : schema.Valid sv.contents ∧
        sv.contents .settings ⊆ s.shared.contents .settings := by
      rcases hserver with rfl | ⟨now, hexec⟩
      · exact ⟨hs.valid, List.Subset.refl _⟩
      · exact ⟨Server.execute_valid hs.valid hexec, settings_other rfl hexec⟩
    refine ⟨hvalid.1, fun x hx => ?_, fun x hx config hphase => ?_⟩
    · rcases List.mem_or_eq_of_mem_set hx with hx | rfl
      · exact hfewer hvalid.2 (hs.noRepository x hx)
      · rw [hdevice]
        exact hfewer hvalid.2 (hs.noRepository st hst)
    · rcases List.mem_or_eq_of_mem_set hx with hx | rfl
      · exact hs.phase x hx config hphase
      · obtain ⟨-, hrepo, jobs, schedules, sort, -, -, hload⟩ := Start.step_started hstep hphase
        have hno : NoRepository s.shared.database.contents st.deviceId := by
          rw [Server.database, Database.contents_ofContents]
          exact hs.noRepository st hst
        exact not_hasRepository (Server.admitted_of_valid hs.valid) (sort.order _ _) hno hload hrepo
  | other b =>
    simp only [Starts.step] at h
    obtain ⟨sv, hsv, rfl⟩ := Option.map_eq_some_iff.1 h
    refine ⟨Server.step_valid hs.valid hsv, fun x hx => ?_, hs.phase⟩
    rcases Server.step_eq hsv with rfl | hexec
    · exact hs.noRepository x hx
    · exact hfewer (settings_other (ha b rfl) hexec) (hs.noRepository x hx)

/-- **Without a repository no client starts.**  As long as nobody sets a repository for the devices,
    as nobody has where there is nothing but the settings of the migrations, no client that comes
    up gets past the check, whatever clients and administrators do at the same time. -/
theorem no_repository_no_start (json : String → Json) {s : Server} (hs : s.database.Admitted)
    {starts : List Start} (hinit : ∀ st ∈ starts, st.phase = .connect)
    (hno : ∀ st ∈ starts, NoRepository s.contents st.deviceId) {as : List StartAction}
    (hothers : ∀ a, .other a ∈ as → a.writesSettings = false) {s' : Starts}
    (h : exec (Starts.step json) ⟨s, starts⟩ as = some s') :
    ∀ st ∈ s'.parts, ∀ config, st.phase ≠ .started config := by
  have hstuck : Starts.Stuck ⟨s, starts⟩ :=
    ⟨Server.valid_of_admitted hs, hno, fun st hst config hphase => by
      cases (hinit st hst).symm.trans hphase⟩
  have hall : Along (Starts.step json) (fun _ a => ∀ b, a = .other b → b.writesSettings = false)
      ⟨s, starts⟩ as := along_of_forall (fun a ha _ b hb => hothers b (by rw [← hb]; exact ha)) _
  have hstuck' : s'.Stuck :=
    exec_along (fun _ _ _ hs hothers hstep => hs.step hothers hstep) hstuck hall h
  exact hstuck'.phase

/-- The default settings set no repository, for no device. -/
theorem Database.migrated_noRepository (now : DateTime) (deviceId : String) :
    NoRepository (Database.migrated now).contents deviceId := by
  intro r hr hsets
  have hkeys : ∀ r ∈ (Database.migrated now).settings,
      r "key" = .text "repository_url" → r "value" = .text "" := of_decide_eq_true rfl
  exact hkeys r hr (hsets.elim And.right And.right)

/-- The error a start has ended with. -/
def Start.error (st : Start) : Option AppError :=
  match st.phase with
  | .failed e => some e
  | _ => none

/-- Steps in which nothing fails. -/
def Start.quiet (now : DateTime) (sort : SettingSort) : List StartEvent :=
  [.createPool (.ok ()), .runMigrations (.ok ()), .upsertDevice .done now "", .getJobs (.ok ()),
    .getSchedules (.ok ()), .getSettings (.ok ()) sort]

def SettingSort.byTable : SettingSort := ⟨Database.settingRows, Database.settingOrder_settingRows⟩

/-- The first client of a database registers, loads everything and stops. -/
theorem no_repository_no_start_migrated :
    let starts : List Start := [.init (.withLogFile "/var/log/rbackup2.log") "linux" none]
    let as := (Start.quiet 0 .byTable).map (StartAction.start 0)
    ∃ s', exec (Starts.step fun _ => .null) ⟨⟨(Database.migrated 0).contents, 1⟩, starts⟩ as =
        some s' ∧
      s'.parts.map Start.error = [some (.config (.validationFailed
        "Repository URL is not configured in database settings"))] ∧
      ∀ st ∈ s'.parts, ∀ config, st.phase ≠ .started config := by
  intro starts as
  have hsome : (exec (Starts.step fun _ => .null) ⟨⟨(Database.migrated 0).contents, 1⟩, starts⟩
      as).isSome = true := by decide +kernel
  have hend : ∀ s' ∈ exec (Starts.step fun _ => .null)
      ⟨⟨(Database.migrated 0).contents, 1⟩, starts⟩ as, s'.parts.map Start.error =
        [some (.config (.validationFailed
          "Repository URL is not configured in database settings"))] := by decide +kernel
  obtain ⟨s', h⟩ := Option.isSome_iff_exists.1 hsome
  refine ⟨s', h, hend s' h, no_repository_no_start (fun _ => .null)
    (s := ⟨(Database.migrated 0).contents, 1⟩) (Database.migrated_admitted 0) (fun st hst => ?_)
    (fun st _ => Database.migrated_noRepository 0 st.deviceId) (fun a ha => ?_) h⟩
  · rw [List.mem_singleton.1 hst]
    rfl
  · simp [as] at ha

end RBackup2
