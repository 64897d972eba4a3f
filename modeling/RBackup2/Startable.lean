import RBackup2.Startup

/-!
# Exactly when a client starts

What stands in the way of a start that nobody disturbs and whose calls to the database all go
through.

* `repositorySet_iff` — the settings name a repository, in whatever order they are returned.
* `Start.quiet_started_iff` — the statements of a start that comes through.
* `client_starts_iff` — the condition on the rows that are there before it.
-/

set_option autoImplicit false

namespace RBackup2

open Sql Transition

/-- A start that nobody disturbs. -/
def Start.alone (json : String → Json) (p : Server × Start) (ev : StartEvent) :
    Option (Server × Start) :=
  p.2.step json p.1 ev

/-- The settings name a repository for the device: its own row does, or it has none, and all of
    the rows for all devices do. -/
def RepositorySet (c : Contents Table) (deviceId : String) : Prop :=
  (∃ r ∈ c .settings, Sets r (.text deviceId) "repository_url" ∧ r "value" ≠ .text "") ∨
    (∀ r ∈ c .settings, ¬ Sets r (.text deviceId) "repository_url") ∧
      (∃ r ∈ c .settings, Sets r .null "repository_url") ∧
      ∀ r ∈ c .settings, Sets r .null "repository_url" → r "value" ≠ .text ""

/-- A start needs all this, and nothing else. -/
structure Startable (c : Contents Table) (deviceId : String) (hostname : Option String) : Prop where
  id : Storable 255 deviceId
  host : ∀ h ∈ hostname, Storable 255 h
  /-- The row of the device has the id as the column is given it. -/
  device : ∀ r ∈ c .devices, r "id" = .text (cutBlanks 255 deviceId) → r "metadata" ≠ .null
  jobs : ∀ r ∈ (Database.ofContents c).jobRows deviceId, Readable .backupJobs r
  schedules : ∀ r ∈ (Database.ofContents c).scheduleRows deviceId, Readable .schedules r
  repository : RepositorySet c deviceId

theorem hasRepository_iff {db : Database} (hadm : db.Admitted) {deviceId : String}
    {rows : List Row} (hrows : db.SettingOrder deviceId rows) (jobs : List BackupJob)
    (schedules : List Schedule) :
    (∃ config, loadConfigFromDb (.ok jobs) (.ok schedules) rows = .ok config ∧
      HasRepository config) ↔
    ∃ r, rows.reverse.find? (fun r => textAt r "key" == "repository_url") = some r ∧
      r "value" ≠ .text "" := by
  obtain ⟨config, hconfig, hlookup⟩ := load_config_lookup (hrows.admits hadm) jobs schedules
  have hurl : config.repositoryUrl =
      (rows.reverse.find? fun r => textAt r "key" == "repository_url").map
        fun r => textAt r "value" := hlookup "repository_url"
  constructor
  · rintro ⟨config', hconfig', url, hurl', hne⟩
    cases hconfig.symm.trans hconfig'
    obtain ⟨r, hr, rfl⟩ := Option.map_eq_some_iff.1 (hurl.symm.trans hurl')
    refine ⟨r, hr, fun hempty => hne (textAt_eq hempty)⟩
  · rintro ⟨r, hr, hne⟩
    obtain ⟨-, -, hvalue⟩ := sets_of_find hadm hrows hr
    rw [hr, Option.map_some] at hurl
    exact ⟨config, hconfig, textAt r "value", hurl, fun hempty => hne (by rw [hvalue, hempty])⟩

/-- Whatever order the server chooses, the start finds a repository. -/
theorem repositorySet_iff {db : Database} (hadm : db.Admitted) (deviceId : String) :
    (∀ rows, db.SettingOrder deviceId rows →
      ∃ r, rows.reverse.find? (fun r => textAt r "key" == "repository_url") = some r ∧
        r "value" ≠ .text "") ↔ RepositorySet db.contents deviceId := by
  constructor
  · intro h
    by_cases hown : ∃ r ∈ db.settings, Sets r (.text deviceId) "repository_url"
    · obtain ⟨r, hr, hsets⟩ := hown
      obtain ⟨r', hr', hne⟩ := h _ (db.settingOrder_settingRows deviceId)
      cases (find_of_device hadm (db.settingOrder_settingRows deviceId) hr hsets).symm.trans hr'
      exact .inl ⟨r, hr, hsets, hne⟩
    · have hnone : ∀ r ∈ db.settings, ¬ Sets r (.text deviceId) "repository_url" :=
        fun r hr hsets => hown ⟨r, hr, hsets⟩
      refine .inr ⟨hnone, ?_, fun r hr hsets => ?_⟩
      · obtain ⟨r, hr, -⟩ := h _ (db.settingOrder_settingRows deviceId)
        obtain ⟨hmem, hsets, -⟩ := sets_of_find hadm (db.settingOrder_settingRows deviceId) hr
        exact ⟨r, hmem, hsets.resolve_right (hnone r hmem)⟩
      · obtain ⟨rows, hrows, hlast⟩ := exists_order_of_global hadm hnone hr hsets
        obtain ⟨r', hr', hne⟩ := h rows hrows
        cases hlast.symm.trans hr'
        exact hne
  · rintro (⟨r, hr, hsets, hne⟩ | ⟨hnone, hsome, hall⟩) rows hrows
    · exact ⟨r, find_of_device hadm hrows hr hsets, hne⟩
    · obtain ⟨r, hr, hsets, hlast⟩ := find_of_global hadm hrows hnone hsome
      exact ⟨r, hlast, hall r hr hsets⟩

theorem exists_sort {db : Database} {deviceId : String} {rows : List Row}
    (h : db.SettingOrder deviceId rows) : ∃ sort : SettingSort, sort.rows db deviceId = rows := by
  classical
  refine ⟨⟨fun db' d => if db' = db ∧ d = deviceId then rows else db'.settingRows d,
    fun db' d => ?_⟩, if_pos ⟨rfl, rfl⟩⟩
  by_cases hsame : db' = db ∧ d = deviceId
  · obtain ⟨rfl, rfl⟩ := hsame
    rw [if_pos ⟨rfl, rfl⟩]
    exact h
  · rw [if_neg hsame]
    exact db'.settingOrder_settingRows d

section Steps

variable {json : String → Json} {s s' : Server} {st st' : Start}

/-- A start that has failed is over. -/
theorem Start.step_failed {e : AppError} (h : st.phase = .failed e) (ev : StartEvent) :
    st.step json s ev = none := by
  cases ev <;> simp [Start.step, h]

theorem Start.not_going {s₁ : Server} {e : AppError} :
    ¬ (some (s₁, st.fail e) = some (s', st') ∧ ∀ e, st'.phase ≠ .failed e) := by
  rintro ⟨heq, hgoing⟩
  cases heq
  exact hgoing e rfl

theorem Start.going_iff {s₁ : Server} {phase : StartPhase} (h : ∀ e, phase ≠ .failed e) :
    (some (s₁, { st with phase := phase }) = some (s', st') ∧ ∀ e, st'.phase ≠ .failed e) ↔
      s' = s₁ ∧ st' = { st with phase := phase } := by
  constructor
  · rintro ⟨heq, -⟩
    cases heq
    exact ⟨rfl, rfl⟩
  · rintro ⟨rfl, rfl⟩
    exact ⟨rfl, h⟩

/-- A registration after which the start goes on. -/
theorem Start.register_iff (h : st.phase = .register) (now : DateTime) (refusal : String) :
    (st.step json s (.upsertDevice .done now refusal) = some (s', st') ∧
      ∀ e, st'.phase ≠ .failed e) ↔
    s.execute (.client st.registration now) = some s' ∧
      (∃ vs, s'.database.getDevice (cutBlanks 255 st.deviceId) = .ok (some vs)) ∧
      st' = { st with phase := .loadJobs } := by
  simp only [Start.step, h]
  cases hexec : s.execute (.client st.registration now) with
  | none => exact iff_of_false Start.not_going fun h => (by cases h.1)
  | some s₁ =>
    simp only [Option.some.injEq]
    cases hdevice : s₁.database.getDevice (cutBlanks 255 st.deviceId) with
    | error e =>
      refine iff_of_false Start.not_going ?_
      rintro ⟨rfl, ⟨vs, hvs⟩, -⟩
      cases hdevice.symm.trans hvs
    | ok o =>
      cases o with
      | none =>
        refine iff_of_false Start.not_going ?_
        rintro ⟨rfl, ⟨vs, hvs⟩, -⟩
        cases hdevice.symm.trans hvs
      | some vs =>
        refine (Start.going_iff fun e he => (by cases he)).trans ⟨?_, ?_⟩
        · rintro ⟨rfl, rfl⟩
          exact ⟨rfl, ⟨vs, hdevice⟩, rfl⟩
        · rintro ⟨rfl, -, rfl⟩
          exact ⟨rfl, rfl⟩

/-- A first SELECT after which the start goes on. -/
theorem Start.jobs_iff (h : st.phase = .loadJobs) :
    (st.step json s (.getJobs (.ok ())) = some (s', st') ∧ ∀ e, st'.phase ≠ .failed e) ↔
    ∃ jobs, s.getJobsForDevice json st.deviceId = .ok jobs ∧ s' = s ∧
      st' = { st with phase := .loadSchedules jobs } := by
  simp only [Start.step, h]
  cases s.getJobsForDevice json st.deviceId with
  | error e => exact iff_of_false Start.not_going (by simp)
  | ok jobs =>
    refine (Start.going_iff fun e he => (by cases he)).trans ?_
    simp

/-- A second SELECT after which the start goes on. -/
theorem Start.schedules_iff {jobs : List BackupJob} (h : st.phase = .loadSchedules jobs) :
    (st.step json s (.getSchedules (.ok ())) = some (s', st') ∧ ∀ e, st'.phase ≠ .failed e) ↔
    ∃ schedules, s.getSchedulesForDevice st.deviceId = .ok schedules ∧ s' = s ∧
      st' = { st with phase := .loadSettings jobs schedules } := by
  simp only [Start.step, h]
  cases s.getSchedulesForDevice st.deviceId with
  | error e => exact iff_of_false Start.not_going (by simp)
  | ok schedules =>
    refine (Start.going_iff fun e he => (by cases he)).trans ?_
    simp

/-- The last SELECT. -/
theorem Start.settings_iff {jobs : List BackupJob} {schedules : List Schedule}
    (h : st.phase = .loadSettings jobs schedules) (sort : SettingSort) (config : RemoteConfig) :
    (∃ st', st.step json s (.getSettings (.ok ()) sort) = some (s', st') ∧
      st'.phase = .started config) ↔
    s' = s ∧ loadConfigFromDb (.ok jobs) (.ok schedules) (sort.rows s.database st.deviceId) =
      .ok config ∧ HasRepository config := by
  simp only [Start.step, h, Option.some.injEq, Prod.mk.injEq]
  rw [← Start.configured_started_iff st]
  constructor
  · rintro ⟨st', ⟨rfl, rfl⟩, hst⟩
    exact ⟨rfl, hst⟩
  · rintro ⟨rfl, hst⟩
    exact ⟨_, ⟨rfl, rfl⟩, hst⟩

/-- Nothing comes after a failure. -/
theorem Start.going_of_exec {p q : Server × Start} {evs : List StartEvent}
    (h : exec (Start.alone json) p evs = some q) (hq : ∀ e, q.2.phase ≠ .failed e) :
    ∀ e, p.2.phase ≠ .failed e := by
  cases evs with
  | nil =>
    cases h
    exact hq
  | cons ev evs =>
    obtain ⟨m, hm, -⟩ := exec_cons.1 h
    intro e he
    rw [Start.alone, Start.step_failed he] at hm
    cases hm

/-- A start in which nothing but the server and its rows can stand in the way. -/
theorem Start.quiet_started_iff (h : st.phase = .connect) (now : DateTime) (sort : SettingSort) :
    (∃ p config, exec (Start.alone json) (s, st) (Start.quiet now sort) = some p ∧
      p.2.phase = .started config) ↔
    ∃ s₁ jobs schedules, s.execute (.client st.registration now) = some s₁ ∧
      (∃ vs, s₁.database.getDevice (cutBlanks 255 st.deviceId) = .ok (some vs)) ∧
      s₁.getJobsForDevice json st.deviceId = .ok jobs ∧
      s₁.getSchedulesForDevice st.deviceId = .ok schedules ∧
      ∃ config, loadConfigFromDb (.ok jobs) (.ok schedules) (sort.rows s₁.database st.deviceId) =
        .ok config ∧ HasRepository config := by
  let st₁ : Start := { st with phase := .register }
  have hpool : exec (Start.alone json) (s, st) (Start.quiet now sort) =
      exec (Start.alone json) (s, st₁) ((Start.quiet now sort).drop 2) := by
    obtain ⟨deviceId, targetOs, hostname, phase⟩ := st
    cases h
    rfl
  rw [hpool]
  have hreg : st₁.phase = .register := rfl
  constructor
  · rintro ⟨p, config, hexec, hp⟩
    have hgoing : ∀ e, p.2.phase ≠ .failed e := fun e he => (by cases hp.symm.trans he)
    obtain ⟨⟨s₁, r₁⟩, h₁, hexec⟩ := exec_cons.1 hexec
    obtain ⟨haccepted, hdevice, rfl⟩ :=
      (Start.register_iff hreg now "").1 ⟨h₁, Start.going_of_exec hexec hgoing⟩
    obtain ⟨⟨s₂, r₂⟩, h₂, hexec⟩ := exec_cons.1 hexec
    obtain ⟨jobs, hjobs, rfl, rfl⟩ :=
      (Start.jobs_iff rfl).1 ⟨h₂, Start.going_of_exec hexec hgoing⟩
    obtain ⟨⟨s₃, r₃⟩, h₃, hexec⟩ := exec_cons.1 hexec
    obtain ⟨schedules, hschedules, rfl, rfl⟩ :=
      (Start.schedules_iff rfl).1 ⟨h₃, Start.going_of_exec hexec hgoing⟩
    obtain ⟨⟨s₄, r₄⟩, h₄, hexec⟩ := exec_cons.1 hexec
    cases hexec
    obtain ⟨-, hload⟩ := (Start.settings_iff rfl sort config).1 ⟨_, h₄, hp⟩
    exact ⟨_, jobs, schedules, haccepted, hdevice, hjobs, hschedules, config, hload⟩
  · rintro ⟨s₁, jobs, schedules, haccepted, hdevice, hjobs, hschedules, config, hload⟩
    let st₂ : Start := { st with phase := .loadJobs }
    let st₃ : Start := { st with phase := .loadSchedules jobs }
    let st₄ : Start := { st with phase := .loadSettings jobs schedules }
    have hst₂ : st₂.phase = .loadJobs := rfl
    have hst₃ : st₃.phase = .loadSchedules jobs := rfl
    have hst₄ : st₄.phase = .loadSettings jobs schedules := rfl
    have h₁ : st₁.step json s (.upsertDevice .done now "") = some (s₁, st₂) :=
      ((Start.register_iff hreg now "").2 ⟨haccepted, hdevice, rfl⟩).1
    have h₂ : st₂.step json s₁ (.getJobs (.ok ())) = some (s₁, st₃) :=
      ((Start.jobs_iff hst₂).2 ⟨jobs, hjobs, rfl, rfl⟩).1
    have h₃ : st₃.step json s₁ (.getSchedules (.ok ())) = some (s₁, st₄) :=
      ((Start.schedules_iff hst₃).2 ⟨schedules, hschedules, rfl, rfl⟩).1
    obtain ⟨r, h₄, hr⟩ : ∃ r, st₄.step json s₁ (.getSettings (.ok ()) sort) = some (s₁, r) ∧
        r.phase = .started config := (Start.settings_iff hst₄ sort config).2 ⟨rfl, hload⟩
    exact ⟨(s₁, r), config, exec_cons.2 ⟨_, h₁, exec_cons.2 ⟨_, h₂, exec_cons.2 ⟨_, h₃,
      exec_cons.2 ⟨_, h₄, rfl⟩⟩⟩⟩, hr⟩

end Steps

theorem map_ok_iff {α β ε : Type} {x : Except ε α} {f : α → β} :
    (∃ b, x.map f = .ok b) ↔ ∃ a, x = .ok a := by
  cases x <;> simp [Except.map]

theorem getJobs_ok_iff (json : String → Json) {s : Server} (hs : schema.Valid s.contents)
    (deviceId : String) : (∃ jobs, s.getJobsForDevice json deviceId = .ok jobs) ↔
      ∀ r ∈ s.database.jobRows deviceId, Readable .backupJobs r :=
  map_ok_iff.trans (fetchAll_decodes_iff ⟨backupJobs_gaps.1, rfl, rfl⟩ fun r hr =>
    (hs.fits .backupJobs r (List.mem_filter.1 hr).1).1)

theorem getSchedules_ok_iff {s : Server} (hs : schema.Valid s.contents) (deviceId : String) :
    (∃ schedules, s.getSchedulesForDevice deviceId = .ok schedules) ↔
      ∀ r ∈ s.database.scheduleRows deviceId, Readable .schedules r :=
  map_ok_iff.trans (fetchAll_decodes_iff ⟨schedules_gaps.1, rfl, rfl⟩ fun r hr =>
    (hs.fits .schedules r (List.mem_filter.1 hr).1).1)

theorem platform_storable (targetOs : String) : Storable 50 (platform targetOs) := by
  unfold platform
  split
  · decide
  · split <;> decide

/-- What a start finds once it has registered. -/
theorem registered_iff {json : String → Json} {s s₁ : Server} (hs : schema.Valid s.contents)
    {st : Start} {now : DateTime} (hs₁ : s.execute (.client st.registration now) = some s₁)
    (sort : SettingSort) :
    (∃ s₁ jobs schedules, s.execute (.client st.registration now) = some s₁ ∧
      (∃ vs, s₁.database.getDevice (cutBlanks 255 st.deviceId) = .ok (some vs)) ∧
      s₁.getJobsForDevice json st.deviceId = .ok jobs ∧
      s₁.getSchedulesForDevice st.deviceId = .ok schedules ∧
      ∃ config, loadConfigFromDb (.ok jobs) (.ok schedules) (sort.rows s₁.database st.deviceId) =
        .ok config ∧ HasRepository config) ↔
    (∀ r ∈ s.contents .devices, r "id" = .text (cutBlanks 255 st.deviceId) →
        r "metadata" ≠ .null) ∧
      (∀ r ∈ s.database.jobRows st.deviceId, Readable .backupJobs r) ∧
      (∀ r ∈ s.database.scheduleRows st.deviceId, Readable .schedules r) ∧
      ∃ r, (sort.rows s₁.database st.deviceId).reverse.find?
        (fun r => textAt r "key" == "repository_url") = some r ∧ r "value" ≠ .text "" := by
  have hvalid := Server.execute_valid hs hs₁
  have hadm := Server.admitted_of_valid hvalid
  have hsame := (contents_upsertDevice hs₁).1
  have hbackupJobs : s₁.database.backupJobs = s.database.backupJobs := hsame _ (by decide)
  have hjobs : s₁.database.jobRows st.deviceId = s.database.jobRows st.deviceId := by
    rw [Database.jobRows, hbackupJobs, Database.jobRows]
  have hschedules : s₁.database.scheduleRows st.deviceId =
      s.database.scheduleRows st.deviceId := by
    have hrows : s₁.database.schedules = s.database.schedules := hsame _ (by decide)
    rw [Database.scheduleRows, hrows, hjobs, Database.scheduleRows]
  have hrepository := hasRepository_iff hadm (sort.order s₁.database st.deviceId)
  rw [← getDevice_registered_iff hs hs₁, ← hjobs, ← hschedules,
    ← getJobs_ok_iff json hvalid, ← getSchedules_ok_iff hvalid]
  constructor
  · rintro ⟨s₂, jobs, schedules, hs₂, hdevice, hj, hsch, hload⟩
    cases hs₁.symm.trans hs₂
    exact ⟨hdevice, ⟨jobs, hj⟩, ⟨schedules, hsch⟩, (hrepository jobs schedules).1 hload⟩
  · rintro ⟨hdevice, ⟨jobs, hj⟩, ⟨schedules, hsch⟩, hfind⟩
    exact ⟨s₁, jobs, schedules, hs₁, hdevice, hj, hsch, (hrepository jobs schedules).2 hfind⟩

/-- **Exactly when a client starts**, if every call to the database goes through: the server takes
    its id and its host name for their columns, its device has metadata, its jobs and schedules
    have no NULL the structs have no place for, and the settings name a repository for it, in
    whatever order the server returns them. -/
theorem client_starts_iff (json : String → Json) {s : Server} (hs : s.database.Admitted)
    {st : Start} (hst : st.phase = .connect) (now : DateTime) :
    (∀ sort, ∃ p config, exec (Start.alone json) (s, st) (Start.quiet now sort) = some p ∧
      p.2.phase = .started config) ↔ Startable s.contents st.deviceId st.hostname := by
  have hvalid := Server.valid_of_admitted hs
  have haccepted : (∃ s₁, s.execute (.client st.registration now) = some s₁) ↔
      Registrable st.deviceId st.deviceId (platform st.targetOs) st.hostname :=
    upsertDevice_accepted_iff hvalid now _ _ _ _
  rw [forall_congr' fun sort => Start.quiet_started_iff hst now sort]
  by_cases hreg : Registrable st.deviceId st.deviceId (platform st.targetOs) st.hostname
  · obtain ⟨s₁, hs₁⟩ := haccepted.2 hreg
    have hsettings : s₁.contents .settings = s.contents .settings :=
      (contents_upsertDevice hs₁).1 _ (by decide)
    have hset : RepositorySet s₁.database.contents st.deviceId ↔
        RepositorySet s.contents st.deviceId := by
      rw [Server.database, Database.contents_ofContents, RepositorySet, RepositorySet, hsettings]
    rw [forall_congr' fun sort => registered_iff hvalid hs₁ sort]
    have hadm := Server.admitted_of_valid (Server.execute_valid hvalid hs₁)
    constructor
    · intro h
      obtain ⟨hdevice, hjobs, hschedules, -⟩ := h .byTable
      refine ⟨hreg.1, hreg.2.2.2, hdevice, hjobs, hschedules, hset.1 ?_⟩
      refine (repositorySet_iff hadm _).1 fun rows hrows => ?_
      obtain ⟨sort, rfl⟩ := exists_sort hrows
      exact (h sort).2.2.2
    · intro h sort
      refine ⟨h.device, h.jobs, h.schedules, ?_⟩
      exact (repositorySet_iff hadm _).2 (hset.2 h.repository) _ (sort.order _ _)
  · constructor
    · intro h
      obtain ⟨s₁, -, -, hs₁, -⟩ := h .byTable
      exact absurd (haccepted.1 ⟨s₁, hs₁⟩) hreg
    · exact fun h => absurd ⟨h.id, h.id, platform_storable _, h.host⟩ hreg

instance (c : Contents Table) (deviceId : String) : Decidable (RepositorySet c deviceId) :=
  inferInstanceAs (Decidable (_ ∨ _))

/-- A server on which an administrator has set a repository for all devices. -/
def Server.withRepository (url : String) : Server :=
  Server.after ⟨(Database.migrated 0).contents, 1⟩
    [.other (.update .settings (fun r => r "key" == .text "repository_url") fun _ =>
      [("value", .text url)])]

theorem client_starts_iff_repository :
    let s := Server.withRepository "sftp:backup@host:/data"
    let st : Start := .init (.withLogFile "/var/log/rbackup2.log") "linux" (some "blade.local")
    ∀ sort, ∃ p config, exec (Start.alone fun _ => .null) (s, st) (Start.quiet 0 sort) = some p ∧
      p.2.phase = .started config := by
  intro s st
  have hvalid : schema.Valid s.contents :=
    Server.valid_of_exec (s := ⟨(Database.migrated 0).contents, 1⟩)
      (Server.valid_of_admitted (Database.migrated_admitted 0)) (Server.exec_after _ _)
  have hnone : s.contents .devices = [] ∧ s.contents .backupJobs = [] ∧
      s.contents .schedules = [] := ⟨rfl, rfl, rfl⟩
  refine (client_starts_iff (fun _ => .null) (Server.admitted_of_valid hvalid) rfl 0).2
    ⟨by decide, by decide, fun r hr => ?_, fun r hr => ?_, fun r hr => ?_, by decide +kernel⟩
  · rw [hnone.1] at hr
    cases hr
  · have hmem : r ∈ s.contents .backupJobs := (List.mem_filter.1 hr).1
    rw [hnone.2.1] at hmem
    cases hmem
  · have hmem : r ∈ s.contents .schedules := (List.mem_filter.1 hr).1
    rw [hnone.2.2] at hmem
    cases hmem

end RBackup2