import RBackup2.Limits
import RBackup2.OnServer
import RBackup2.Startup

/-!
# Processes

`main.rs` as a whole: a process starts, loads its remote configuration once, and then does one
backup and reports it, if it is given `--test-backup`, or loads its schedules once and runs as a
client until it is stopped.  Any number of processes do so on one server.

* `Process.step` — the steps of a process.
* `Configured`, `Scheduled`, `ReadScheduled` — what a process has read, and when.
* `Process.Sound` — a process goes by what it has read itself; `Process.Sound.step` preserves it.
* `backups_of_processes` — where the configuration and the job of a backup come from, and in which
  order.
-/

set_option autoImplicit false

namespace RBackup2

open Sql Transition

/-! ## The steps of a process -/

/-- A way to carry out `WHERE device_id = $1 ORDER BY start_time DESC` on the runs. -/
structure RunSort where
  rows : Database → String → List Row
  perm : ∀ (db : Database) (deviceId : String),
    (rows db deviceId).Perm (db.runs.filter fun r => r "device_id" == .text deviceId)
  sorted : ∀ (db : Database) (deviceId : String),
    (rows db deviceId).Pairwise fun a b => Database.startsNoEarlier a b = true

/-- Where `run` stands. -/
inductive ProcessPhase where
  | starting
  /-- `--test-backup`: the job is selected next. -/
  | test (config : RemoteConfig)
  | testBackup (call : BackupCall)
  /-- The backup has succeeded; its results are selected next. -/
  | testReport (job : BackupJob) (runId : Int)
  /-- Scheduler and executor are spawned. -/
  | spawned (m : ClientMemory)
  /-- The load of the schedules, with these effects still to come, and its result. -/
  | loading (m : ClientMemory) (effects : List Effect) (result : Except AppError Unit)
  | running (m : ClientMemory)
  /-- `run` has returned; of a test, the run id and the results that were shown. -/
  | over (result : Except AppError (Option (Int × Run)))

structure Process where
  start : Start
  /-- `--test-backup`. -/
  testBackup : Option Uuid
  phase : ProcessPhase

def Process.init (config : LocalConfig) (targetOs : String) (hostname : Option String)
    (testBackup : Option Uuid) : Process :=
  ⟨.init config targetOs hostname, testBackup, .starting⟩

/-- What the environment decides in a step; the text is what sqlx or the server reports. -/
inductive ProcessEvent where
  | start (ev : StartEvent)
  | getJobById (r : Except String Unit)
  | backup (ev : BackupEvent)
  | backupReturns
  | getRecentRuns (r : Except String Unit) (sort : RunSort)
  | reload (env : ReloadEnv)
  | reloadEffect (now : DateTime)
  | reloadReturns
  | client (a : ClientAction) (now : DateTime)
  /-- Ctrl-C, or the end of the process by other means. -/
  | stop

def Process.finish (p : Process) (result : Except AppError (Option (Int × Run))) : Process :=
  { p with phase := .over result }

/-- `run` behind a step of its start. -/
def Process.proceed (serde : SerdeJson) (p : Process) (st : Start) : Process :=
  { p with
    start := st
    phase :=
      match st.phase, p.testBackup with
      | .failed e, _ => .over (.error e)
      | .started config, some _ => .test config
      | .started config, none => .spawned (.plain (.ofConfig serde config))
      | _, _ => .starting }

/-- What an effect of a load does to the map. -/
def ClientMemory.apply (m : ClientMemory) (e : Effect) : ClientMemory :=
  { m with schedules := (World.apply ⟨[], [], m.schedules⟩ e).schedules }

/-- `get_recent_runs(&pool, device_id, 1)`. -/
def Server.getRecentRun (s : Server) (sort : RunSort) (deviceId : String) :
    Except DecodeError (Option Run) :=
  let rows := (sort.rows s.database deviceId).take 1
  (fetchAll RBackup2.runsTable runFields rows).map fun _ => (rows.map Row.toRun).head?

/-- A step of `run`; nothing calls `trigger_manual_backup`. -/
def Process.step (json : String → Json) (cron : CronCrate) (serde : SerdeJson) (s : Server)
    (p : Process) : ProcessEvent → Option (Server × Process)
  | .start ev =>
    match p.phase with
    | .starting => (p.start.step json s ev).map fun q => (q.1, p.proceed serde q.2)
    | _ => none
  | .getJobById r =>
    match p.phase, p.testBackup with
    | .test config, some jobId =>
      match r, s.getJobById json jobId with
      | .error e, _ => some (s, p.finish (.error (.ofSqlx e)))
      | .ok (), .error e => some (s, p.finish (.error (.ofSqlx e.display)))
      | .ok (), .ok none => some (s, p.finish (.error (.backup (.configurationError
          ("Job with ID " ++ jobId.display ++ " not found")))))
      | .ok (), .ok (some job) => some (s, { p with phase := .testBackup (.start job config) })
    | _, _ => none
  | .backup ev =>
    match p.phase with
    | .testBackup call =>
      (call.onServer serde s ev).map fun q => (q.1, { p with phase := .testBackup q.2 })
    | _ => none
  | .backupReturns =>
    match p.phase with
    | .testBackup call =>
      match call.pc with
      | .returned (.error e) => some (s, p.finish (.error e))
      | .returned (.ok runId) => some (s, { p with phase := .testReport call.job runId })
      | _ => none
    | _ => none
  | .getRecentRuns r sort =>
    match p.phase with
    | .testReport job runId =>
      match r, s.getRecentRun sort job.deviceId with
      | .error e, _ => some (s, p.finish (.error (.ofSqlx e)))
      | .ok (), .error e => some (s, p.finish (.error (.ofSqlx e.display)))
      | .ok (), .ok none => some (s, p.finish (.error (.ofSqlx
          "no rows returned by a query that expected to return at least one row")))
      | .ok (), .ok (some run) => some (s, p.finish (.ok (some (runId, run))))
    | _ => none
  | .reload env =>
    match p.phase with
    | .spawned m =>
      match env.select, s.getSchedulesForDevice p.start.deviceId with
      | .ok (), .error e => some (s, { p with phase := .loading m [] (.error (.ofSqlx e.display)) })
      | .ok (), .ok rows =>
        let r := reloadSchedules cron env rows
        some (s, { p with phase := .loading m r.1 r.2 })
      | .error e, _ => some (s, { p with phase := .loading m [] (.error (.ofSqlx e)) })
    | _ => none
  | .reloadEffect now =>
    match p.phase with
    | .loading m (e :: rest) result =>
      let p' := { p with phase := .loading (m.apply e) rest result }
      match e.statement with
      | none => some (s, p')
      | some q => (s.execute (.client q now)).map fun s' => (s', p')
    | _ => none
  | .reloadReturns =>
    match p.phase with
    | .loading m [] (.ok ()) => some (s, { p with phase := .running m })
    -- the error is logged, and the scheduler's end is that of the process
    | .loading _ [] (.error _) => some (s, p.finish (.ok none))
    | _ => none
  | .client a now =>
    match p.phase, a with
    | .running _, .triggerManualBackup _ => none
    | .running m, a =>
      (m.onServer json cron s now a).map fun q => (q.1, { p with phase := .running q.2 })
    | _, _ => none
  | .stop =>
    match p.phase with
    | .over _ => none
    | _ => some (s, p.finish (.ok none))

/-- Processes on one server. -/
abbrev Processes := Interleaving Server Process

inductive ProcessesAction where
  | process (i : Nat) (ev : ProcessEvent)
  /-- Anything else that happens on the server. -/
  | other (a : ServerAction)

def Processes.step (json : String → Json) (cron : CronCrate) (serde : SerdeJson) (s : Processes) :
    ProcessesAction → Option Processes
  | .process i ev => Interleaving.step (Process.step json cron serde) s (i, ev)
  | .other a => (s.shared.step a).map fun sv => ⟨sv, s.parts⟩

/-- The client of a process. -/
def Process.client (p : Process) : Option ClientMemory :=
  match p.phase with
  | .spawned m => some m
  | .loading m _ _ => some m
  | .running m => some m
  | _ => none

/-- The process has made the call of `execute_backup`. -/
def Process.Calls (p : Process) (call : BackupCall) : Prop :=
  p.phase = .testBackup call ∨ ∃ m t, p.client = some m ∧ t ∈ m.tasks ∧ t.call = some call

/-! ## What was in the database -/

/-- The value of a key is the device's, or there is none of the device and it is one for all. -/
def Stands (settings : List Row) (deviceId key value : String) : Prop :=
  ∃ r ∈ settings, r "value" = .text value ∧ (Sets r (.text deviceId) key ∨
    Sets r .null key ∧ ∀ x ∈ settings, ¬ Sets x (.text deviceId) key)

/-- The configuration has the settings of the device: what it has stands in the table, and it has a
    value for every key that is set for the device or for all. -/
def InForce (settings : List Row) (deviceId : String) (config : RemoteConfig) : Prop :=
  ∀ key, (∀ value, config.getSetting key = some value → Stands settings deviceId key value) ∧
    ((∃ r ∈ settings, Sets r (.text deviceId) key ∨ Sets r .null key) →
      (config.getSetting key).isSome = true)

/-- What `load_config_from_db` returns are the settings of the device. -/
theorem inForce_of_load {db : Database} (hadm : db.Admitted) {deviceId : String} {rows : List Row}
    (hrows : db.SettingOrder deviceId rows) {jobs : List BackupJob} {schedules : List Schedule}
    {config : RemoteConfig} (h : loadConfigFromDb (.ok jobs) (.ok schedules) rows = .ok config) :
    InForce db.settings deviceId config := by
  obtain ⟨config', hconfig, hlookup⟩ := load_config_lookup (hrows.admits hadm) jobs schedules
  cases h.symm.trans hconfig
  intro key
  have hkey : config.getSetting key = (rows.reverse.find? fun r => textAt r "key" == key).map
      (fun r => textAt r "value") := hlookup key
  constructor
  · intro value hvalue
    obtain ⟨r, hr, rfl⟩ := Option.map_eq_some_iff.1 (hkey.symm.trans hvalue)
    obtain ⟨hmem, hsets, htext⟩ := sets_of_find hadm hrows hr
    refine ⟨r, hmem, htext, hsets.symm.imp id fun hnull => ⟨hnull, fun x hx hown => ?_⟩⟩
    -- the device's own row would be the last one with the key
    cases hr.symm.trans (find_of_device hadm hrows hx hown)
    cases hnull.1.symm.trans hown.1
  · rintro ⟨r, hr, hsets⟩
    rw [hkey]
    by_cases hown : ∃ x ∈ db.settings, Sets x (.text deviceId) key
    · obtain ⟨x, hx, hx'⟩ := hown
      rw [find_of_device hadm hrows hx hx']
      rfl
    · have hnone : ∀ x ∈ db.settings, ¬ Sets x (.text deviceId) key :=
        fun x hx hx' => hown ⟨x, hx, hx'⟩
      obtain ⟨x, -, -, hx⟩ := find_of_global hadm hrows hnone
        ⟨r, hr, hsets.resolve_left (hnone r hr)⟩
      rw [hx]
      rfl

section History

variable (json : String → Json) (cron : CronCrate) (serde : SerdeJson) (s₀ : Processes) (n : Nat)

/-- Process `n` has loaded the settings of the device, which name a repository. -/
def Configured (deviceId : String) (config : RemoteConfig) : List ProcessesAction → Prop :=
  Happened (Processes.step json cron serde) s₀ fun _ s a => ∃ sort jobs schedules,
    a = .process n (.start (.getSettings (.ok ()) sort)) ∧
    loadConfigFromDb (.ok jobs) (.ok schedules) (sort.rows s.shared.database deviceId) =
      .ok config ∧
    HasRepository config ∧ InForce (s.shared.contents .settings) deviceId config

/-- Later on, its load of the schedules has returned an enabled one of the job, which was enabled
    and of the device. -/
def Scheduled (deviceId : String) (config : RemoteConfig) (jobId : Uuid) :
    List ProcessesAction → Prop :=
  Happened (Processes.step json cron serde) s₀ fun pre s a => ∃ env rows,
    a = .process n (.reload env) ∧ env.select = .ok () ∧
    s.shared.getSchedulesForDevice deviceId = .ok rows ∧
    (∃ r ∈ rows, r.jobId = jobId ∧ r.enabled = true) ∧
    Eligible (s.shared.tables json).jobs deviceId jobId ∧
    Configured json cron serde s₀ n deviceId config pre

/-- Later still, one of its tasks has read the job as it is. -/
def ReadScheduled (deviceId : String) (config : RemoteConfig) (job : BackupJob) :
    List ProcessesAction → Prop :=
  Happened (Processes.step json cron serde) s₀ fun pre s a =>
    (∃ i now, a = .process n (.client (.executor (.task i (.getJobById none))) now)) ∧
    s.shared.getJobById json job.id = .ok (some job) ∧
    Scheduled json cron serde s₀ n deviceId config job.id pre

/-- With the settings but without a schedule, `--test-backup` has read the job as it is. -/
def ReadForTest (deviceId : String) (config : RemoteConfig) (job : BackupJob) :
    List ProcessesAction → Prop :=
  Happened (Processes.step json cron serde) s₀ fun pre s a =>
    a = .process n (.getJobById (.ok ())) ∧ s.shared.getJobById json job.id = .ok (some job) ∧
    Configured json cron serde s₀ n deviceId config pre

/-- The task is of a scheduled job, and its backup of the row it read. -/
structure Task.Sound (deviceId : String) (config : RemoteConfig) (as : List ProcessesAction)
    (t : Task) : Prop where
  scheduled : Scheduled json cron serde s₀ n deviceId config t.execution.jobId as
  job : ∀ job, t.job = some job → ReadScheduled json cron serde s₀ n deviceId config job as
  call : ∀ call, t.call = some call → call.config = config ∧ t.job = some call.job

/-- What a client goes by the process has read. -/
structure ClientMemory.Sound (deviceId : String) (as : List ProcessesAction) (m : ClientMemory) :
    Prop where
  configured : Configured json cron serde s₀ n deviceId m.executor.config as
  schedules : ∀ id u, m.schedules.get id = some u →
    Scheduled json cron serde s₀ n deviceId m.executor.config u.jobId as
  pending : ∀ e ∈ m.pending,
    e.Knows fun jobId => Scheduled json cron serde s₀ n deviceId m.executor.config jobId as
  jobQueue : ∀ e ∈ m.jobQueue,
    Scheduled json cron serde s₀ n deviceId m.executor.config e.jobId as
  tasks : ∀ t ∈ m.tasks, t.Sound json cron serde s₀ n deviceId m.executor.config as

/-- What a process goes by it has read. -/
def Process.Sound (as : List ProcessesAction) (p : Process) : Prop :=
  match p.phase with
  | .starting => True
  | .test config => Configured json cron serde s₀ n p.start.deviceId config as
  | .testBackup call => p.testBackup = some call.job.id ∧
      ReadForTest json cron serde s₀ n p.start.deviceId call.config call.job as
  | .testReport _ _ => True
  | .spawned m => p.testBackup = none ∧ m.Sound json cron serde s₀ n p.start.deviceId as
  | .loading m effects _ => p.testBackup = none ∧ m.Sound json cron serde s₀ n p.start.deviceId as ∧
      ∀ e ∈ effects, e.Knows fun jobId =>
        Scheduled json cron serde s₀ n p.start.deviceId m.executor.config jobId as
  | .running m => p.testBackup = none ∧ m.Sound json cron serde s₀ n p.start.deviceId as
  | .over _ => True

variable {json cron serde s₀ n} {deviceId : String} {config : RemoteConfig}
  {as : List ProcessesAction}

theorem Configured.hasRepository (h : Configured json cron serde s₀ n deviceId config as) :
    HasRepository config := by
  obtain ⟨-, -, -, -, -, -, -, -, -, -, -, hrepository, -⟩ := h
  exact hrepository

/-! ## What was so stays so -/

theorem Task.Sound.append {t : Task} (h : t.Sound json cron serde s₀ n deviceId config as)
    (bs : List ProcessesAction) : t.Sound json cron serde s₀ n deviceId config (as ++ bs) where
  scheduled := Happened.append h.scheduled bs
  job job hjob := Happened.append (h.job job hjob) bs
  call := h.call

theorem ClientMemory.Sound.append {m : ClientMemory} (h : m.Sound json cron serde s₀ n deviceId as)
    (bs : List ProcessesAction) : m.Sound json cron serde s₀ n deviceId (as ++ bs) where
  configured := Happened.append h.configured bs
  schedules id u hu := Happened.append (h.schedules id u hu) bs
  pending e he := (h.pending e he).mono fun _ hj => Happened.append hj bs
  jobQueue e he := Happened.append (h.jobQueue e he) bs
  tasks t ht := (h.tasks t ht).append bs

theorem Process.Sound.append {p : Process} (h : p.Sound json cron serde s₀ n as)
    (bs : List ProcessesAction) : p.Sound json cron serde s₀ n (as ++ bs) := by
  unfold Process.Sound at h ⊢
  split at h
  · trivial
  · exact Happened.append h bs
  · exact ⟨h.1, Happened.append h.2 bs⟩
  · trivial
  · exact ⟨h.1, h.2.append bs⟩
  · refine ⟨h.1, h.2.1.append bs, fun e he => ?_⟩
    exact (h.2.2 e he).mono fun _ hj => Happened.append hj bs
  · exact ⟨h.1, h.2.append bs⟩
  · trivial

/-! ## What a step of a client goes by -/

/-- The jobs of the server have ids of their own. -/
theorem Server.jobs_nodup (json : String → Json) {s : Server} (hs : schema.Valid s.contents) :
    ((s.tables json).jobs.map (·.id)).Nodup := by
  have hrows : ∀ r ∈ s.contents .backupJobs, Admits backupJobsTable r := fun r hr =>
    (hs.fits .backupJobs r hr).1
  have hids : ((s.contents .backupJobs).map fun r => r "id").Nodup :=
    (nodup_filterMap_key (t := .backupJobs) hrows).1
      (hs.distinct .backupJobs _ List.mem_cons_self)
  have hvalues : ((s.contents .backupJobs).map fun r => r "id") =
      ((s.tables json).jobs.map (·.id)).map Value.uuid := by
    unfold Server.tables
    rw [List.map_map, List.map_map]
    exact List.map_congr_left fun r hr => (backupJob_columns json (hrows r hr)).1
  rw [hvalues] at hids
  exact hids.of_map


/-- A step of a task that reads no table. -/
theorem Task.Sound.step {ex : JobExecutor} {sh sh' : Shared} {t t' : Task} {ev : TaskEvent}
    (ht : t.Sound json cron serde s₀ n deviceId ex.config as)
    (hev : ClientAction.readsTables (.executor (.task 0 ev)) = false)
    (h : t.step ex [] sh ev = some (sh', t')) :
    t'.Sound json cron serde s₀ n deviceId ex.config as := by
  have hjob := ht.job
  have hcall := ht.call
  obtain ⟨err, -, hp, -, ⟨e, rfl⟩ | ⟨-, rfl⟩ | ⟨job, hfound, rfl⟩⟩ |
    ⟨job, -, hp, -, ⟨-, rfl⟩ | ⟨-, rfl⟩⟩ | ⟨job, -, hp, -, rfl⟩ | ⟨job, -, hp, -, rfl⟩ |
    ⟨job, call, bev, runs, call', rfl, -⟩ | ⟨job, call, ret, -, hp, -, -, rfl⟩ := Task.step_cases h
  case inl.inr.inr => cases hfound
  case inr.inr.inr.inl =>
    simp only [Task.job, hp] at hjob
    refine ⟨ht.scheduled, hjob, fun c hc => ?_⟩
    cases hc
    exact ⟨rfl, rfl⟩
  case inr.inr.inr.inr.inl => cases hev
  all_goals
    simp only [Task.job, Task.call, hp] at hjob hcall
    exact ⟨ht.scheduled, hjob, hcall⟩

/-- A backup stays one of the same job with the same configuration. -/
theorem BackupCall.onServer_same {s s' : Server} {c c' : BackupCall} {ev : BackupEvent}
    (h : c.onServer serde s ev = some (s', c')) : c'.job = c.job ∧ c'.config = c.config := by
  obtain ⟨o, now, -, -, -, ⟨-, rfl⟩ | ⟨e, rfl⟩⟩ |
    ⟨os, which, spawn, runId, -, -, -, ⟨e, -, rfl⟩ | ⟨cmd, r, -, -, rfl⟩⟩ |
    ⟨o, now, runId, u, ret, ret', -, -, -, rfl⟩ := BackupCall.onServer_cases h
  all_goals exact ⟨rfl, rfl⟩

/-- The job the server selects has the id. -/
theorem Server.getJobById_some {s : Server} (hs : schema.Valid s.contents) {jobId : Uuid}
    {job : BackupJob} (h : s.getJobById json jobId = .ok (some job)) : job.id = jobId := by
  have hfound : some job = RBackup2.getJobById (s.tables json).jobs jobId := by
    rw [Server.getJobById_ok h, jobByIdRows_toBackupJob json hs]
  exact getJobById_id hfound.symm

/-- What a step of a client that reads no table does to its memory. -/
theorem ClientMemory.onServer_memory {s s' : Server} {m m' : ClientMemory} {now : DateTime}
    {a : ClientAction} (ha : a.readsTables = false)
    (h : m.onServer json cron s now a = some (s', m')) :
    ∃ c, (m.on ⟨⟨[], []⟩, .empty⟩).step cron m.executor a = some c ∧ m' = c.memory m.executor := by
  rw [ClientMemory.onServer_noTables _ _ _ _ _ ha] at h
  cases hmem : m.step cron ⟨⟨[], []⟩, .empty⟩ a with
  | none =>
    rw [hmem] at h
    cases h
  | some p =>
    obtain ⟨c, hc, rfl⟩ := Option.map_eq_some_iff.1 hmem
    refine ⟨c, hc, ?_⟩
    rw [hmem] at h
    cases hq : m.statement a with
    | none =>
      rw [hq] at h
      cases h
      rfl
    | some q =>
      rw [hq] at h
      obtain ⟨s₁, -, heq⟩ := Option.map_eq_some_iff.1 h
      cases heq
      rfl

/-- A step that reads no table, and triggers no manual backup. -/
theorem ClientMemory.Sound.step_noTables {m : ClientMemory} {c : Client} {a : ClientAction}
    (hm : m.Sound json cron serde s₀ n deviceId as) (ha : a.readsTables = false)
    (hmanual : ∀ jobId, a ≠ .triggerManualBackup jobId)
    (h : (m.on ⟨⟨[], []⟩, .empty⟩).step cron m.executor a = some c) :
    (c.memory m.executor).Sound json cron serde s₀ n deviceId as := by
  cases a with
  | triggerManualBackup jobId => exact absurd rfl (hmanual jobId)
  | check t =>
    simp only [Client.step] at h
    split at h
    · rename_i hok
      cases h
      exact ⟨hm.configured, hm.schedules, knows_checkSchedules hok.2 hm.schedules, hm.jobQueue,
        hm.tasks⟩
    · cases h
  | effect =>
    have hpending := hm.pending
    simp only [Client.step] at h
    split at h
    · cases h
    · rename_i e rest hp
      have hp : m.pending = .send e :: rest := hp
      rw [hp] at hpending
      obtain ⟨he, hrest⟩ := List.forall_mem_cons.1 hpending
      split at h
      · cases h
      · rename_i executor hsend
        cases h
        refine ⟨hm.configured, hm.schedules, hrest, ?_, ?_⟩
        · rw [Executor.send_eq hsend]
          intro x hx
          rcases List.mem_append.1 hx with hx | hx
          · exact hm.jobQueue x hx
          · rw [List.mem_singleton.1 hx]
            exact he
        · rw [Executor.send_eq hsend]
          exact hm.tasks
    · rename_i e rest hne hp
      cases h
      have hp : m.pending = e :: rest := hp
      rw [hp] at hpending
      obtain ⟨he, hrest⟩ := List.forall_mem_cons.1 hpending
      exact ⟨hm.configured, knows_apply he hm.schedules, hrest, hm.jobQueue, hm.tasks⟩
  | executor b =>
    simp only [Client.step] at h
    split at h
    · cases h
    · rename_i executor hstep
      cases h
      obtain ⟨execution, rest, rfl, hq, rfl⟩ | ⟨i, ev, t, sh, t', rfl, hi, htask, rfl⟩ :=
        Executor.step_cases hstep
      · have hq : m.jobQueue = execution :: rest := hq
        have hqueue := hm.jobQueue
        rw [hq] at hqueue
        obtain ⟨he, hrest⟩ := List.forall_mem_cons.1 hqueue
        refine ⟨hm.configured, hm.schedules, hm.pending, hrest, fun t ht => ?_⟩
        rcases List.mem_append.1 ht with ht | ht
        · exact hm.tasks t ht
        · rw [List.mem_singleton.1 ht]
          exact ⟨he, fun job hjob => (by cases hjob), fun call hcall => (by cases hcall)⟩
      · refine ⟨hm.configured, hm.schedules, hm.pending, hm.jobQueue, fun u hu => ?_⟩
        rcases List.mem_or_eq_of_mem_set hu with hu | rfl
        · exact hm.tasks u hu
        · have ht := hm.tasks t (List.mem_of_getElem? hi)
          have hev : ClientAction.readsTables (.executor (.task 0 ev)) = false := by
            cases ev with
            | getJobById err => cases err <;> first | rfl | cases ha
            | backup => cases ha
            | _ => rfl
          exact ht.step hev htask

/-- A task that is somewhere else now. -/
theorem ClientMemory.Sound.setPhase {m : ClientMemory}
    (hm : m.Sound json cron serde s₀ n deviceId as) {i : Nat} {execution : JobExecution} {p : Phase}
    (ht : Task.Sound json cron serde s₀ n deviceId m.executor.config as ⟨execution, p⟩) :
    (m.setPhase i execution p).Sound json cron serde s₀ n deviceId as := by
  refine ⟨hm.configured, hm.schedules, hm.pending, hm.jobQueue, fun u hu => ?_⟩
  rcases List.mem_or_eq_of_mem_set hu with hu | rfl
  · exact hm.tasks u hu
  · exact ht

section Step

variable {s : Processes} (hrun : exec (Processes.step json cron serde) s₀ as = some s)
  (hvalid : schema.Valid s.shared.contents)

include hrun hvalid

/-- **A step of a client keeps to what the process has read.** -/
theorem ClientMemory.Sound.step {m m' : ClientMemory} {sv : Server} {now : DateTime}
    {a : ClientAction} (hm : m.Sound json cron serde s₀ n deviceId as)
    (hmanual : ∀ jobId, a ≠ .triggerManualBackup jobId)
    (h : m.onServer json cron s.shared now a = some (sv, m')) :
    m'.Sound json cron serde s₀ n deviceId (as ++ [.process n (.client a now)]) := by
  have hm' := hm.append [.process n (.client a now)]
  by_cases ha : a.readsTables = false
  · obtain ⟨c, hc, rfl⟩ := ClientMemory.onServer_memory ha h
    exact hm'.step_noTables ha hmanual hc
  · cases a with
    | check | effect | triggerManualBackup => exact absurd rfl ha
    | executor b =>
      cases b with
      | recv => exact absurd rfl ha
      | task i ev =>
        cases ev with
        | getJobById err =>
          cases err with
          | some e => exact absurd rfl ha
          | none =>
            simp only [ClientMemory.onServer] at h
            split at h
            · rename_i execution ht
              have hscheduled := (hm.tasks _ (List.mem_of_getElem? ht)).scheduled
              have hscheduled' := (hm'.tasks _ (List.mem_of_getElem? ht)).scheduled
              split at h
              · cases h
              · cases h
                exact hm'.setPhase ⟨hscheduled', fun job hjob => (by cases hjob),
                  fun call hcall => (by cases hcall)⟩
              · rename_i job hjob
                cases h
                refine hm'.setPhase
                  ⟨hscheduled', fun j hj => ?_, fun call hcall => (by cases hcall)⟩
                cases hj
                have hid := Server.getJobById_some hvalid hjob
                rw [← hid] at hjob
                exact Happened.now hrun ⟨⟨i, now, rfl⟩, hjob, hid ▸ hscheduled⟩
            · cases h
        | backup bev =>
          simp only [ClientMemory.onServer] at h
          split at h
          · rename_i execution job call ht
            obtain ⟨⟨sv', call'⟩, hstep, heq⟩ := Option.map_eq_some_iff.1 h
            cases heq
            obtain ⟨hjob, hconfig⟩ := BackupCall.onServer_same hstep
            have htask := hm'.tasks _ (List.mem_of_getElem? ht)
            refine hm'.setPhase ⟨htask.scheduled, htask.job, fun c hc => ?_⟩
            cases hc
            obtain ⟨hc, hj⟩ := htask.call call rfl
            rw [hconfig, hjob]
            exact ⟨hc, hj⟩
          · cases h
        | canExecute | markRunning | startBackup | markCompleted => exact absurd rfl ha

/-- What a start goes on with it has loaded. -/
theorem Configured.of_start {st st' : Start} {sv : Server} {ev : StartEvent}
    (h : st.step json s.shared ev = some (sv, st')) (hst : st'.phase = .started config) :
    Configured json cron serde s₀ n st.deviceId config (as ++ [.process n (.start ev)]) := by
  obtain ⟨-, hrepository, jobs, schedules, sort, rfl, -, hload⟩ := Start.step_started h hst
  refine Happened.now hrun ⟨sort, jobs, schedules, rfl, hload, hrepository, ?_⟩
  exact inForce_of_load (Server.admitted_of_valid hvalid) (sort.order _ _) hload

/-- A schedule a load selects is one of a scheduled job. -/
theorem Scheduled.of_select (hconfigured : Configured json cron serde s₀ n deviceId config as)
    {env : ReloadEnv} (hselect : env.select = .ok ()) {rows : List Schedule}
    (h : s.shared.getSchedulesForDevice deviceId = .ok rows) :
    ∀ r ∈ rows, Scheduled json cron serde s₀ n deviceId config r.jobId
      (as ++ [.process n (.reload env)]) := by
  intro r hr
  have hsel := hr
  rw [Server.getSchedulesForDevice_ok h, scheduleRows_toSchedule json hvalid] at hr
  obtain ⟨-, hmatch⟩ := List.mem_filter.1 hr
  refine Happened.now hrun ⟨env, rows, rfl, hselect, h, ⟨r, hsel, rfl, ?_⟩, ?_, hconfigured⟩
  · rw [Bool.and_eq_true] at hmatch
    exact hmatch.1
  · exact getSchedulesForDevice_eligible (Server.jobs_nodup json hvalid) r hr

omit hrun hvalid in
/-- What is loaded is gone by, once the start is over. -/
theorem Process.proceed_sound {p : Process} {st : Start}
    (hst : ∀ config, st.phase = .started config →
      Configured json cron serde s₀ n st.deviceId config as) :
    (p.proceed serde st).Sound json cron serde s₀ n as := by
  unfold Process.Sound Process.proceed
  cases hphase : st.phase with
  | started config =>
    have hconfigured := hst config hphase
    cases htest : p.testBackup with
    | some jobId => exact hconfigured
    | none =>
      refine ⟨rfl, hconfigured, fun id u hu => ?_, fun e he => ?_, fun e he => ?_, fun t ht => ?_⟩
      · cases hu
      · cases he
      · cases he
      · cases ht
  | _ => trivial

/-- **A step of a process keeps to what the process has read.** -/
theorem Process.Sound.step {p p' : Process} {sv : Server} {ev : ProcessEvent}
    (hp : p.Sound json cron serde s₀ n as)
    (h : p.step json cron serde s.shared ev = some (sv, p')) :
    p'.Sound json cron serde s₀ n (as ++ [.process n ev]) := by
  have hp' := hp.append [.process n ev]
  unfold Process.Sound at hp hp'
  cases ev with
  | start ev =>
    simp only [Process.step] at h
    split at h
    · obtain ⟨⟨sv', st⟩, hstart, heq⟩ := Option.map_eq_some_iff.1 h
      cases heq
      refine Process.proceed_sound fun config hst => ?_
      rw [(Start.step_server hstart).1]
      exact Configured.of_start hrun hvalid hstart hst
    · cases h
  | getJobById r =>
    simp only [Process.step] at h
    split at h
    · rename_i config jobId hphase htest
      rw [hphase] at hp
      split at h
      · cases h; trivial
      · cases h; trivial
      · cases h; trivial
      · rename_i job hjob
        cases h
        have hid := Server.getJobById_some hvalid hjob
        rw [← hid] at hjob
        refine ⟨?_, Happened.now hrun ⟨rfl, hjob, hp⟩⟩
        rw [htest, ← hid]
        rfl
    · cases h
  | backup ev =>
    simp only [Process.step] at h
    split at h
    · rename_i call hphase
      rw [hphase] at hp'
      obtain ⟨⟨sv', call'⟩, hstep, heq⟩ := Option.map_eq_some_iff.1 h
      cases heq
      obtain ⟨hjob, hconfig⟩ := BackupCall.onServer_same hstep
      show p.testBackup = some call'.job.id ∧
        ReadForTest json cron serde s₀ n p.start.deviceId call'.config call'.job _
      rw [hjob, hconfig]
      exact hp'
    · cases h
  | backupReturns =>
    simp only [Process.step] at h
    split at h
    · split at h <;> cases h <;> trivial
    · cases h
  | getRecentRuns r sort =>
    simp only [Process.step] at h
    split at h
    · split at h <;> cases h <;> trivial
    · cases h
  | reload env =>
    simp only [Process.step] at h
    split at h
    · rename_i m hphase
      rw [hphase] at hp hp'
      split at h
      · cases h
        exact ⟨hp'.1, hp'.2, fun e he => by cases he⟩
      · rename_i rows hsel hrows
        cases h
        refine ⟨hp'.1, hp'.2, ?_⟩
        have hknown := Scheduled.of_select hrun hvalid hp.2.configured hsel hrows
        unfold reloadSchedules
        rw [hsel]
        exact List.forall_mem_cons.2 ⟨trivial, knows_reloadLoop hknown⟩
      · cases h
        exact ⟨hp'.1, hp'.2, fun e he => by cases he⟩
    · cases h
  | reloadEffect now =>
    simp only [Process.step] at h
    split at h
    · rename_i m e rest result hphase
      rw [hphase] at hp'
      obtain ⟨hnone, hm, heffects⟩ := hp'
      obtain ⟨he, hrest⟩ := List.forall_mem_cons.1 heffects
      have hm' : (m.apply e).Sound json cron serde s₀ n p.start.deviceId _ :=
        ⟨hm.configured, knows_apply he hm.schedules, hm.pending, hm.jobQueue, hm.tasks⟩
      split at h
      · cases h
        exact ⟨hnone, hm', hrest⟩
      · obtain ⟨s', -, heq⟩ := Option.map_eq_some_iff.1 h
        cases heq
        exact ⟨hnone, hm', hrest⟩
    · cases h
  | reloadReturns =>
    simp only [Process.step] at h
    split at h
    · rename_i m hphase
      rw [hphase] at hp'
      cases h
      exact ⟨hp'.1, hp'.2.1⟩
    · cases h
      trivial
    · cases h
  | client a now =>
    simp only [Process.step] at h
    split at h
    · cases h
    · rename_i m hphase hmanual
      rw [hphase] at hp
      obtain ⟨⟨sv', m'⟩, hstep, heq⟩ := Option.map_eq_some_iff.1 h
      cases heq
      exact ⟨hp.1, hp.2.step hrun hvalid hmanual hstep⟩
    · cases h
  | stop =>
    simp only [Process.step] at h
    split at h <;> cases h
    trivial

end Step

/-! ## What a step does to the server -/

/-- A backup sends the server a statement, or leaves it alone. -/
theorem BackupCall.onServer_server {s s' : Server} {c c' : BackupCall} {ev : BackupEvent}
    (h : c.onServer serde s ev = some (s', c')) :
    s' = s ∨ ∃ q now, s.execute (.client q now) = some s' := by
  obtain ⟨o, now, -, -, ⟨-, hexec⟩ | ⟨-, rfl⟩, -⟩ | ⟨os, which, spawn, runId, -, -, rfl, -⟩ |
    ⟨o, now, runId, u, ret, ret', -, -, ⟨-, hexec⟩ | ⟨-, rfl⟩, -⟩ := BackupCall.onServer_cases h
  · exact .inr ⟨_, now, hexec⟩
  · exact .inl rfl
  · exact .inl rfl
  · exact .inr ⟨_, now, hexec⟩
  · exact .inl rfl

/-- So does a client. -/
theorem ClientMemory.onServer_server {s s' : Server} {m m' : ClientMemory} {now : DateTime}
    {a : ClientAction} (h : m.onServer json cron s now a = some (s', m')) :
    s' = s ∨ ∃ q now, s.execute (.client q now) = some s' := by
  by_cases ha : a.readsTables = false
  · rw [ClientMemory.onServer_noTables _ _ _ _ _ ha] at h
    split at h
    · cases h
    · cases h
      exact .inl rfl
    · rename_i q _ _
      obtain ⟨s₁, hexec, heq⟩ := Option.map_eq_some_iff.1 h
      cases heq
      exact .inr ⟨q, now, hexec⟩
  · cases a with
    | check | effect | triggerManualBackup => exact absurd rfl ha
    | executor b =>
      cases b with
      | recv => exact absurd rfl ha
      | task i ev =>
        cases ev with
        | getJobById err =>
          cases err with
          | some e => exact absurd rfl ha
          | none =>
            simp only [ClientMemory.onServer] at h
            split at h
            · split at h <;> cases h <;> exact .inl rfl
            · cases h
        | backup bev =>
          simp only [ClientMemory.onServer] at h
          split at h
          · obtain ⟨⟨s₁, c'⟩, hstep, heq⟩ := Option.map_eq_some_iff.1 h
            cases heq
            exact BackupCall.onServer_server hstep
          · cases h
        | canExecute | markRunning | startBackup | markCompleted => exact absurd rfl ha

/-- So does a process. -/
theorem Process.step_server {s s' : Server} {p p' : Process} {ev : ProcessEvent}
    (h : p.step json cron serde s ev = some (s', p')) :
    s' = s ∨ ∃ q now, s.execute (.client q now) = some s' := by
  cases ev with
  | start ev =>
    simp only [Process.step] at h
    split at h
    · obtain ⟨⟨s₁, st⟩, hstart, heq⟩ := Option.map_eq_some_iff.1 h
      cases heq
      rcases (Start.step_server hstart).2 with rfl | ⟨now, hexec⟩
      · exact .inl rfl
      · exact .inr ⟨_, now, hexec⟩
    · cases h
  | backup ev =>
    simp only [Process.step] at h
    split at h
    · obtain ⟨⟨s₁, c'⟩, hstep, heq⟩ := Option.map_eq_some_iff.1 h
      cases heq
      exact BackupCall.onServer_server hstep
    · cases h
  | reloadEffect now =>
    simp only [Process.step] at h
    split at h
    · split at h
      · cases h
        exact .inl rfl
      · rename_i q _
        obtain ⟨s₁, hexec, heq⟩ := Option.map_eq_some_iff.1 h
        cases heq
        exact .inr ⟨q, now, hexec⟩
    · cases h
  | client a now =>
    simp only [Process.step] at h
    split at h
    · cases h
    · obtain ⟨⟨s₁, m'⟩, hstep, heq⟩ := Option.map_eq_some_iff.1 h
      cases heq
      exact ClientMemory.onServer_server hstep
    · cases h
  | getJobById r | getRecentRuns r sort | reload env =>
    left
    simp only [Process.step] at h
    split at h
    · split at h <;> cases h <;> rfl
    · cases h
  | backupReturns =>
    left
    simp only [Process.step] at h
    split at h
    · split at h <;> cases h <;> rfl
    · cases h
  | reloadReturns | stop =>
    left
    simp only [Process.step] at h
    split at h <;> cases h <;> rfl

end History

/-! ## Runs -/

theorem Processes.step_valid {json : String → Json} {cron : CronCrate} {serde : SerdeJson}
    {s s' : Processes} {a : ProcessesAction} (hs : schema.Valid s.shared.contents)
    (h : Processes.step json cron serde s a = some s') : schema.Valid s'.shared.contents := by
  cases a with
  | process i ev =>
    simp only [Processes.step] at h
    obtain ⟨p, sv, p', hi, hstep, rfl⟩ := Interleaving.step_eq h
    rcases Process.step_server hstep with rfl | ⟨q, now, hexec⟩
    · exact hs
    · exact Server.execute_valid hs hexec
  | other b =>
    simp only [Processes.step] at h
    obtain ⟨sv, hsv, rfl⟩ := Option.map_eq_some_iff.1 h
    exact Server.step_valid hs hsv

theorem Processes.valid_of_exec {json : String → Json} {cron : CronCrate} {serde : SerdeJson}
    {s s' : Processes} {as : List ProcessesAction} (hs : schema.Valid s.shared.contents)
    (h : exec (Processes.step json cron serde) s as = some s') :
    schema.Valid s'.shared.contents :=
  exec_invariant (I := fun s : Processes => schema.Valid s.shared.contents)
    (fun _ _ _ hs hstep => Processes.step_valid hs hstep) hs h

theorem Processes.sound_step {json : String → Json} {cron : CronCrate} {serde : SerdeJson}
    {s₀ s s' : Processes} {as : List ProcessesAction} {a : ProcessesAction}
    (hrun : exec (Processes.step json cron serde) s₀ as = some s)
    (hvalid : schema.Valid s.shared.contents)
    (hs : ∀ (n : Nat) p, s.parts[n]? = some p → p.Sound json cron serde s₀ n as)
    (h : Processes.step json cron serde s a = some s') :
    ∀ (n : Nat) p, s'.parts[n]? = some p → p.Sound json cron serde s₀ n (as ++ [a]) := by
  cases a with
  | process i ev =>
    simp only [Processes.step] at h
    obtain ⟨p, sv, p', hi, hstep, rfl⟩ := Interleaving.step_eq h
    intro n x hx
    rcases getElem?_set_cases hx with ⟨rfl, rfl⟩ | ⟨-, hx⟩
    · exact (hs n p hi).step hrun hvalid hstep
    · exact (hs n x hx).append _
  | other b =>
    simp only [Processes.step] at h
    obtain ⟨sv, hsv, rfl⟩ := Option.map_eq_some_iff.1 h
    exact fun n x hx => (hs n x hx).append _

/-- The environment variables restic gets, and the settings they are for. -/
def resticSettings : List (String × String) :=
  [("RESTIC_REPOSITORY", "repository_url"), ("RESTIC_PASSWORD", "repository_password"),
    ("RESTIC_CACHE_DIR", "repository_cache_dir")]

/-- A repository that is not empty is the one of the command. -/
theorem HasRepository.command {config : RemoteConfig} (h : HasRepository config) (os : TargetOs)
    (which : Which) (job : BackupJob) :
    ResticCommand.new os which config ≠
      .error (.backup (.configurationError "Repository URL not set")) ∧
    ∀ cmd, ResticCommand.new os which config = .ok cmd →
      (∃ url, ("RESTIC_REPOSITORY", url) ∈ (cmd.buildBackupCommand job).env ∧ url ≠ "") ∧
      ∀ e ∈ (cmd.buildBackupCommand job).env,
        ∃ key, (e.1, key) ∈ resticSettings ∧ config.getSetting key = some e.2 := by
  obtain ⟨url, hurl, hne⟩ := h
  unfold ResticCommand.new
  rw [hurl]
  cases hpassword : config.repositoryPassword with
  | none => exact ⟨by simp, fun cmd hcmd => by cases hcmd⟩
  | some password =>
    cases hpath : findResticBinary os which with
    | error e =>
      refine ⟨fun heq => ?_, fun cmd hcmd => by cases hcmd⟩
      unfold findResticBinary at hpath
      split at hpath <;> cases hpath
      cases heq
    | ok path =>
      refine ⟨by simp, fun cmd hcmd => ?_⟩
      cases hcmd
      refine ⟨⟨url, List.mem_cons_self, hne⟩, fun e he => ?_⟩
      simp only [ResticCommand.buildBackupCommand, AList.empty_entries, List.map_nil,
        List.append_nil, List.cons_append, List.nil_append, List.mem_cons] at he
      rcases he with rfl | rfl | he
      · exact ⟨"repository_url", List.mem_cons_self, hurl⟩
      · exact ⟨"repository_password", List.mem_cons_of_mem _ List.mem_cons_self, hpassword⟩
      · split at he
        · rename_i cacheDir hdir
          split at he
          · rw [List.mem_singleton.1 he]
            exact ⟨"repository_cache_dir", List.mem_of_getLast? rfl, hdir⟩
          · cases he
        · cases he

/-- The client of a process, which does no test. -/
theorem Process.Sound.client {json : String → Json} {cron : CronCrate} {serde : SerdeJson}
    {s₀ : Processes} {n : Nat} {as : List ProcessesAction} {p : Process} {m : ClientMemory}
    (hp : p.Sound json cron serde s₀ n as) (hm : p.client = some m) :
    p.testBackup = none ∧ m.Sound json cron serde s₀ n p.start.deviceId as := by
  unfold Process.client at hm
  unfold Process.Sound at hp
  split at hm
  · rename_i hphase
    rw [hphase] at hp
    cases hm
    exact hp
  · rename_i hphase
    rw [hphase] at hp
    cases hm
    exact ⟨hp.1, hp.2.1⟩
  · rename_i hphase
    rw [hphase] at hp
    cases hm
    exact hp
  · cases hm

/-- **Where the backups of a process come from.**  Whatever the other processes do and whatever
    anybody else writes to whatever table: before every call of `execute_backup` the process has
    itself, in this order, loaded the settings, all that are in force and a repository among them;
    unless it is a test, loaded an enabled schedule of the job, then enabled and of the device; and
    read the job as it is.  So no backup stops for want of a repository, and restic is told nothing
    but those settings. -/
theorem backups_of_processes (json : String → Json) (cron : CronCrate) (serde : SerdeJson)
    {s : Server} (hs : s.database.Admitted) {processes : List Process}
    (hinit : ∀ p ∈ processes, p.phase = .starting) {as : List ProcessesAction} {s' : Processes}
    (h : exec (Processes.step json cron serde) ⟨s, processes⟩ as = some s') {n : Nat} {p : Process}
    (hp : s'.parts[n]? = some p) {call : BackupCall} (hcall : p.Calls call) :
    (match p.testBackup with
      | none => ReadScheduled json cron serde ⟨s, processes⟩ n p.start.deviceId call.config
          call.job as
      | some jobId => call.job.id = jobId ∧ ReadForTest json cron serde ⟨s, processes⟩ n
          p.start.deviceId call.config call.job as) ∧
    ∀ os which, ResticCommand.new os which call.config ≠
        .error (.backup (.configurationError "Repository URL not set")) ∧
      ∀ cmd, ResticCommand.new os which call.config = .ok cmd →
        (∃ url, ("RESTIC_REPOSITORY", url) ∈ (cmd.buildBackupCommand call.job).env ∧ url ≠ "") ∧
        ∀ e ∈ (cmd.buildBackupCommand call.job).env,
          ∃ key, (e.1, key) ∈ resticSettings ∧ call.config.getSetting key = some e.2 := by
  have hvalid : schema.Valid s.contents := Server.valid_of_admitted hs
  have hstart : ∀ (n : Nat) p, processes[n]? = some p →
      p.Sound json cron serde ⟨s, processes⟩ n [] := by
    intro n p hp
    unfold Process.Sound
    rw [hinit p (List.mem_of_getElem? hp)]
    trivial
  have hsp : p.Sound json cron serde ⟨s, processes⟩ n as :=
    exec_history (P := fun as s' => ∀ (n : Nat) p, s'.parts[n]? = some p →
        p.Sound json cron serde ⟨s, processes⟩ n as)
      hstart (fun _ _ _ _ hm hP hstep =>
        Processes.sound_step hm (Processes.valid_of_exec hvalid hm) hP hstep) h n p hp
  rcases hcall with hphase | ⟨m, t, hclient, ht, htcall⟩
  · unfold Process.Sound at hsp
    rw [hphase] at hsp
    obtain ⟨htest, hread⟩ := hsp
    rw [htest]
    refine ⟨⟨rfl, hread⟩, fun os which => ?_⟩
    obtain ⟨pre, a, post, m, -, -, -, -, hconfigured⟩ := hread
    have hrepository := hconfigured.hasRepository
    exact hrepository.command os which call.job
  · obtain ⟨htest, hm⟩ := hsp.client hclient
    obtain ⟨hconfig, hjob⟩ := (hm.tasks t ht).call call htcall
    have hread := (hm.tasks t ht).job call.job hjob
    rw [htest, hconfig]
    refine ⟨hread, fun os which => ?_⟩
    exact hm.configured.hasRepository.command os which call.job

/-- A process of the device, about to start. -/
def Process.ofDevice (deviceId : String) (testBackup : Option Uuid) : Process :=
  ⟨⟨deviceId, "linux", none, .connect⟩, testBackup, .starting⟩

/-- A server with a device, its job, a schedule of it and a repository. -/
def Server.configured : Server :=
  Server.scheduled.after [.other (.update .settings (fun r => r "key" == .text "repository_url")
    fun _ => [("value", .text "sftp:backup@host:/data")])]

/-- A check finds the schedule due, and its backup begins. -/
def scheduledBackup : List ClientAction :=
  [.check ⟨seconds 3700, [1], fun _ => .succeeding (seconds 3700)⟩, .effect, .effect, .effect,
    .executor .recv] ++ ClientAction.register 0 ++ [.executor (.task 0 .startBackup)]

/-- A process starts and loads its schedule; before it checks it, the repository is taken out of
    the settings. -/
def sampleProcess : List ProcessesAction :=
  (Start.quiet 0 .byTable).map (fun ev => .process 0 (.start ev)) ++
    [.process 0 (.reload ⟨.ok (), fun _ => seconds 100, fun _ => .done⟩),
      .process 0 (.reloadEffect 0), .process 0 (.reloadEffect 0), .process 0 (.reloadEffect 0),
      .process 0 .reloadReturns,
      .other (.other (.delete .settings fun r => r "key" == .text "repository_url"))] ++
    scheduledBackup.map fun a => .process 0 (.client a 0)

/-- The backup goes by the settings and the schedule that were loaded. -/
theorem backups_of_processes_scheduled :
    ∃ s, exec (Processes.step (fun _ => .null) .everyMinute .rejecting)
        ⟨.configured, [.ofDevice "blade" none]⟩ sampleProcess = some s ∧
      ∃ p, s.parts[0]? = some p ∧ ∃ call, p.Calls call ∧
        (∃ deviceId, ReadScheduled (fun _ => .null) .everyMinute .rejecting
          ⟨.configured, [.ofDevice "blade" none]⟩ 0 deviceId call.config call.job sampleProcess) ∧
        ∀ os which, ResticCommand.new os which call.config ≠
          .error (.backup (.configurationError "Repository URL not set")) := by
  have hsome : (exec (Processes.step (fun _ => .null) .everyMinute .rejecting)
      ⟨.configured, [.ofDevice "blade" none]⟩ sampleProcess).isSome = true := by decide +kernel
  have hcalls : ∀ s ∈ exec (Processes.step (fun _ => .null) .everyMinute .rejecting)
      ⟨.configured, [.ofDevice "blade" none]⟩ sampleProcess,
      (s.parts[0]?.any fun p => p.testBackup.isNone &&
        p.client.any fun m => m.tasks.any fun t => t.call.isSome) = true := by
    decide +kernel
  have hvalid : schema.Valid Server.configured.contents :=
    Server.valid_of_exec Server.scheduled_valid (Server.exec_after _ _)
  obtain ⟨s, h⟩ := Option.isSome_iff_exists.1 hsome
  obtain ⟨p, hp, hclient⟩ := (Option.any_eq_true _ _).1 (hcalls s h)
  obtain ⟨htest, hclient⟩ := Bool.and_eq_true_iff.1 hclient
  obtain ⟨m, hm, htasks⟩ := (Option.any_eq_true _ _).1 hclient
  obtain ⟨t, ht, hcall⟩ := List.any_eq_true.1 htasks
  obtain ⟨call, hcall⟩ := Option.isSome_iff_exists.1 hcall
  have hmade : p.Calls call := .inr ⟨m, t, hm, ht, hcall⟩
  have hsource := backups_of_processes (fun _ => .null) .everyMinute .rejecting
    (Server.admitted_of_valid hvalid) (fun p hp => (by rw [List.mem_singleton.1 hp]; rfl)) h hp
    hmade
  rw [Option.isNone_iff_eq_none.1 htest] at hsource
  exact ⟨s, h, p, hp, call, hmade, ⟨_, hsource.1⟩, fun os which => (hsource.2 os which).1⟩

end RBackup2
