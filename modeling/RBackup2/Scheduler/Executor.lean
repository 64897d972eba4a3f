import RBackup2.Backup.Runs

/-!
# The job executor

`scheduler/executor.rs`: `start` receives job executions from the queue and spawns a task for
each; the tasks run `execute_job` on the map `running_jobs` and the table `runs` they share.
A step is what a task does between two awaits: the SELECT of its job, `can_execute`,
`mark_running`, the steps of its backup, `mark_completed`.  A list of actions is an interleaving.

* `Task.step_running` — what a step does to `running_jobs` and to the tasks in flight.
* `Executor.step_executions` — no execution is lost or made up between the queue and the tasks.
* `Registered` — every registration belongs to a task in flight; `Registered.step` preserves it.
* `registrations_sound` — in every reachable state registrations belong to tasks in flight, the
  map is empty when there are none, and a device is refused only while it is at its cap.
-/

set_option autoImplicit false

namespace RBackup2

open Transition

structure JobExecution where
  jobId : Uuid
  triggeredBy : String
  deriving DecidableEq, Repr

/-- The fields of `JobExecutor` that never change, and the decoder its backups use. -/
structure JobExecutor where
  serde : SerdeJson
  config : RemoteConfig
  maxConcurrentPerDevice : Nat

/-- What the tasks share: `running_jobs` and the table `runs`. -/
structure Shared where
  runningJobs : HashMap String Uuid
  runs : RunsTable

/-- `JobExecutor::can_execute`. -/
def JobExecutor.canExecute (self : JobExecutor) (running : HashMap String Uuid)
    (deviceId : String) : Bool :=
  let count := (running.entries.filter fun e => e.1 == deviceId).length
  decide (count < self.maxConcurrentPerDevice)

/-- `JobExecutor::mark_running`. -/
def markRunning (deviceId : String) (jobId : Uuid) (running : HashMap String Uuid) :
    HashMap String Uuid :=
  running.insert deviceId jobId

/-- `JobExecutor::mark_completed`. -/
def markCompleted (deviceId : String) (running : HashMap String Uuid) : HashMap String Uuid :=
  running.erase deviceId

/-! ## Tasks -/

/-- How `execute_job` ended. -/
inductive TaskEnd where
  /-- `get_job_by_id` failed. -/
  | failed (e : AppError)
  /-- "Job not found, skipping execution". -/
  | notFound
  /-- "Device has reached max concurrent backups, skipping". -/
  | refused (job : BackupJob)
  | ran (job : BackupJob) (call : BackupCall)

/-- Where a call of `execute_job` stands. -/
inductive Phase where
  | received
  | found (job : BackupJob)
  | admitted (job : BackupJob)
  | marked (job : BackupJob)
  | executing (job : BackupJob) (call : BackupCall)
  | finished (e : TaskEnd)

structure Task where
  execution : JobExecution
  phase : Phase

inductive TaskEvent where
  /-- The SELECT of the job; an error if it fails. -/
  | getJobById (err : Option String)
  | canExecute
  | markRunning
  | startBackup
  | backup (ev : BackupEvent)
  | markCompleted

/-- One step of `execute_job`; `jobs` is the table `backup_jobs`. -/
def Task.step (ex : JobExecutor) (jobs : List BackupJob) (sh : Shared) (t : Task) :
    TaskEvent → Option (Shared × Task)
  | .getJobById err =>
    match t.phase with
    | .received =>
      match err with
      | some err => some (sh, { t with phase := .finished (.failed (.ofSqlx err)) })
      | none =>
        match RBackup2.getJobById jobs t.execution.jobId with
        | none => some (sh, { t with phase := .finished .notFound })
        | some job => some (sh, { t with phase := .found job })
    | _ => none
  | .canExecute =>
    match t.phase with
    | .found job =>
      if ex.canExecute sh.runningJobs job.deviceId = false then
        some (sh, { t with phase := .finished (.refused job) })
      else some (sh, { t with phase := .admitted job })
    | _ => none
  | .markRunning =>
    match t.phase with
    | .admitted job =>
      some ({ sh with
        runningJobs := RBackup2.markRunning job.deviceId t.execution.jobId sh.runningJobs },
        { t with phase := .marked job })
    | _ => none
  | .startBackup =>
    match t.phase with
    | .marked job => some (sh, { t with phase := .executing job (.start job ex.config) })
    | _ => none
  | .backup ev =>
    match t.phase with
    | .executing job call =>
      match call.step ex.serde sh.runs ev with
      | none => none
      | some (runs, call) =>
        some ({ sh with runs := runs }, { t with phase := .executing job call })
    | _ => none
  | .markCompleted =>
    match t.phase with
    | .executing job call =>
      match call.pc with
      | .returned _ =>
        some ({ sh with runningJobs := RBackup2.markCompleted job.deviceId sh.runningJobs },
          { t with phase := .finished (.ran job call) })
      | _ => none
    | _ => none

/-- The device whose backup the task is doing: it is between `mark_running` and
    `mark_completed`. -/
def Task.inFlight (t : Task) : Option String :=
  match t.phase with
  | .marked job => some job.deviceId
  | .executing job _ => some job.deviceId
  | _ => none

/-- The row of `backup_jobs` the task has read. -/
def Task.job (t : Task) : Option BackupJob :=
  match t.phase with
  | .received => none
  | .found job => some job
  | .admitted job => some job
  | .marked job => some job
  | .executing job _ => some job
  | .finished (.failed _) => none
  | .finished .notFound => none
  | .finished (.refused job) => some job
  | .finished (.ran job _) => some job

/-- The call of `execute_backup` the task has made. -/
def Task.call (t : Task) : Option BackupCall :=
  match t.phase with
  | .executing _ call => some call
  | .finished (.ran _ call) => some call
  | _ => none

/-- **Everything a step of a task can do.** -/
theorem Task.step_cases {ex : JobExecutor} {jobs : List BackupJob} {sh sh' : Shared} {t t' : Task}
    {ev : TaskEvent} (h : t.step ex jobs sh ev = some (sh', t')) :
    (∃ err, ev = .getJobById err ∧ t.phase = .received ∧ sh' = sh ∧
      ((∃ e, t' = { t with phase := .finished (.failed e) }) ∨
        (getJobById jobs t.execution.jobId = none ∧ t' = { t with phase := .finished .notFound }) ∨
        ∃ job, getJobById jobs t.execution.jobId = some job ∧
          t' = { t with phase := .found job })) ∨
    (∃ job, ev = .canExecute ∧ t.phase = .found job ∧ sh' = sh ∧
      ((ex.canExecute sh.runningJobs job.deviceId = false ∧
          t' = { t with phase := .finished (.refused job) }) ∨
        (ex.canExecute sh.runningJobs job.deviceId = true ∧
          t' = { t with phase := .admitted job }))) ∨
    (∃ job, ev = .markRunning ∧ t.phase = .admitted job ∧
      sh' = { sh with runningJobs := markRunning job.deviceId t.execution.jobId sh.runningJobs } ∧
      t' = { t with phase := .marked job }) ∨
    (∃ job, ev = .startBackup ∧ t.phase = .marked job ∧ sh' = sh ∧
      t' = { t with phase := .executing job (.start job ex.config) }) ∨
    (∃ job call bev runs call', ev = .backup bev ∧ t.phase = .executing job call ∧
      call.step ex.serde sh.runs bev = some (runs, call') ∧ sh' = { sh with runs := runs } ∧
      t' = { t with phase := .executing job call' }) ∨
    (∃ job call ret, ev = .markCompleted ∧ t.phase = .executing job call ∧
      call.pc = .returned ret ∧
      sh' = { sh with runningJobs := markCompleted job.deviceId sh.runningJobs } ∧
      t' = { t with phase := .finished (.ran job call) }) := by
  cases ev with
  | getJobById err =>
    left
    simp only [Task.step] at h
    split at h
    · rename_i hp
      refine ⟨err, rfl, hp, ?_⟩
      cases err with
      | some e => cases h; exact ⟨rfl, .inl ⟨_, rfl⟩⟩
      | none =>
        simp only at h
        split at h <;> cases h
        · exact ⟨rfl, .inr (.inl ⟨‹_›, rfl⟩)⟩
        · exact ⟨rfl, .inr (.inr ⟨_, ‹_›, rfl⟩)⟩
    · cases h
  | canExecute =>
    right; left
    simp only [Task.step] at h
    split at h
    · rename_i job hp
      refine ⟨job, rfl, hp, ?_⟩
      split at h <;> rename_i hcan <;> cases h
      · exact ⟨rfl, .inl ⟨hcan, rfl⟩⟩
      · exact ⟨rfl, .inr ⟨by simpa using hcan, rfl⟩⟩
    · cases h
  | markRunning =>
    right; right; left
    simp only [Task.step] at h
    split at h
    · rename_i job hp
      cases h
      exact ⟨job, rfl, hp, rfl, rfl⟩
    · cases h
  | startBackup =>
    right; right; right; left
    simp only [Task.step] at h
    split at h
    · rename_i job hp
      cases h
      exact ⟨job, rfl, hp, rfl, rfl⟩
    · cases h
  | backup bev =>
    right; right; right; right; left
    simp only [Task.step] at h
    split at h
    · rename_i job call hp
      split at h
      · cases h
      · rename_i runs call' hstep
        cases h
        exact ⟨job, call, bev, runs, call', rfl, hp, hstep, rfl, rfl⟩
    · cases h
  | markCompleted =>
    right; right; right; right; right
    simp only [Task.step] at h
    split at h
    · rename_i job call hp
      split at h
      · rename_i ret hret
        cases h
        exact ⟨job, call, ret, rfl, hp, hret, rfl, rfl⟩
      · cases h
    · cases h

/-- A step leaves a registration and who is in flight alone, or changes both together. -/
theorem Task.step_running {ex : JobExecutor} {jobs : List BackupJob} {sh sh' : Shared}
    {t t' : Task} {ev : TaskEvent} (h : t.step ex jobs sh ev = some (sh', t')) :
    t'.execution = t.execution ∧
    ((t'.inFlight = t.inFlight ∧ sh'.runningJobs = sh.runningJobs) ∨
      (∃ d, t.inFlight = none ∧ t'.inFlight = some d ∧
        sh'.runningJobs = markRunning d t.execution.jobId sh.runningJobs) ∨
      (∃ d, t.inFlight = some d ∧ t'.inFlight = none ∧
        sh'.runningJobs = markCompleted d sh.runningJobs)) := by
  obtain ⟨err, -, hp, rfl, ⟨e, rfl⟩ | ⟨-, rfl⟩ | ⟨job, -, rfl⟩⟩ |
    ⟨job, -, hp, rfl, ⟨-, rfl⟩ | ⟨-, rfl⟩⟩ | ⟨job, -, hp, rfl, rfl⟩ | ⟨job, -, hp, rfl, rfl⟩ |
    ⟨job, call, bev, runs, call', -, hp, -, rfl, rfl⟩ | ⟨job, call, ret, -, hp, -, rfl, rfl⟩ :=
    Task.step_cases h
  case inr.inr.inl => exact ⟨rfl, .inr (.inl ⟨job.deviceId, by simp [inFlight, hp], rfl, rfl⟩)⟩
  case inr.inr.inr.inr.inr =>
    exact ⟨rfl, .inr (.inr ⟨job.deviceId, by simp [inFlight, hp], rfl, rfl⟩)⟩
  all_goals exact ⟨rfl, .inl ⟨by simp [inFlight, hp], rfl⟩⟩

/-- The task that comes to be in flight was admitted, and has now registered. -/
theorem Task.admitted_of_registers {ex : JobExecutor} {jobs : List BackupJob} {sh sh' : Shared}
    {t t' : Task} {ev : TaskEvent} {d : String} (h : t.step ex jobs sh ev = some (sh', t'))
    (hfl : t.inFlight = none) (hfl' : t'.inFlight = some d) :
    ∃ job, ev = .markRunning ∧ t.phase = .admitted job ∧ d = job.deviceId := by
  obtain ⟨err, -, hp, -, ⟨e, rfl⟩ | ⟨-, rfl⟩ | ⟨job, -, rfl⟩⟩ |
    ⟨job, -, hp, -, ⟨-, rfl⟩ | ⟨-, rfl⟩⟩ | ⟨job, hev, hp, -, rfl⟩ | ⟨job, -, hp, -, rfl⟩ |
    ⟨job, call, bev, runs, call', -, hp, -, -, rfl⟩ | ⟨job, call, ret, -, hp, -, -, rfl⟩ :=
    Task.step_cases h
  case inr.inr.inl =>
    cases hfl'
    exact ⟨job, hev, hp, rfl⟩
  all_goals simp [inFlight, hp] at hfl hfl'

/-- The row a task works on is the one it read, or it reads it now. -/
theorem Task.step_job {ex : JobExecutor} {jobs : List BackupJob} {sh sh' : Shared} {t t' : Task}
    {ev : TaskEvent} (h : t.step ex jobs sh ev = some (sh', t')) :
    t'.execution = t.execution ∧ (t'.job = t.job ∨
      ∃ job, ev = .getJobById none ∧ getJobById jobs t.execution.jobId = some job ∧
        t'.job = some job) := by
  obtain ⟨err, rfl, hp, rfl, ⟨e, rfl⟩ | ⟨-, rfl⟩ | ⟨job, hjob, rfl⟩⟩ |
    ⟨job, -, hp, -, ⟨-, rfl⟩ | ⟨-, rfl⟩⟩ | ⟨job, -, hp, -, rfl⟩ | ⟨job, -, hp, -, rfl⟩ |
    ⟨job, call, bev, runs, call', -, hp, -, -, rfl⟩ | ⟨job, call, ret, -, hp, -, -, rfl⟩ :=
    Task.step_cases h
  case inl.inr.inr =>
    refine ⟨rfl, .inr ⟨job, ?_, hjob, rfl⟩⟩
    cases err with
    | none => rfl
    | some e => simp [Task.step, hp] at h
  all_goals exact ⟨rfl, .inl (by simp [Task.job, hp])⟩

/-! ## The executor -/

/-- The queue, and the tasks spawned so far. -/
structure Executor extends Interleaving Shared Task where
  jobQueue : List JobExecution

/-- Executions handed to an executor that has not received any yet. -/
def Executor.init (runs : RunsTable) (executions : List JobExecution) : Executor where
  shared := ⟨∅, runs⟩
  parts := []
  jobQueue := executions

inductive ExecutorAction where
  /-- `start` receives the next execution and spawns its task. -/
  | recv
  | task (i : Nat) (ev : TaskEvent)

def Executor.step (ex : JobExecutor) (jobs : List BackupJob) (s : Executor) :
    ExecutorAction → Option Executor
  | .recv =>
    match s.jobQueue with
    | [] => none
    | execution :: rest =>
      some { s with jobQueue := rest, parts := s.parts ++ [⟨execution, .received⟩] }
  | .task i ev =>
    match s.toInterleaving.step (Task.step ex jobs) (i, ev) with
    | none => none
    | some tasks => some ⟨tasks, s.jobQueue⟩

theorem Executor.step_cases {ex : JobExecutor} {jobs : List BackupJob} {s s' : Executor}
    {a : ExecutorAction} (h : s.step ex jobs a = some s') :
    (∃ execution rest, a = .recv ∧ s.jobQueue = execution :: rest ∧
      s' = ⟨⟨s.shared, s.parts ++ [⟨execution, .received⟩]⟩, rest⟩) ∨
    (∃ i ev t sh t', a = .task i ev ∧ s.parts[i]? = some t ∧
      t.step ex jobs s.shared ev = some (sh, t') ∧ s' = ⟨⟨sh, s.parts.set i t'⟩, s.jobQueue⟩) := by
  cases a with
  | recv =>
    left
    simp only [Executor.step] at h
    split at h
    · cases h
    · rename_i execution rest hq
      cases h
      exact ⟨execution, rest, rfl, hq, rfl⟩
  | task i ev =>
    right
    simp only [Executor.step] at h
    split at h
    · cases h
    · rename_i tasks ht
      obtain ⟨t, sh, t', hi, hstep, rfl⟩ := Interleaving.step_eq ht
      cases h
      exact ⟨i, ev, t, sh, t', rfl, hi, hstep, rfl⟩

/-- **Task rule**: what a new task has and every step of a task keeps, the tasks keep. -/
theorem Executor.forall_parts_step {ex : JobExecutor} {jobs : List BackupJob} {s s' : Executor}
    {a : ExecutorAction} {P : Task → Prop} (hnew : ∀ execution, P ⟨execution, .received⟩)
    (hkeep : ∀ i ev t sh t', a = .task i ev → t ∈ s.parts →
      t.step ex jobs s.shared ev = some (sh, t') → P t → P t')
    (hs : ∀ t ∈ s.parts, P t) (h : s.step ex jobs a = some s') : ∀ t ∈ s'.parts, P t := by
  obtain ⟨execution, rest, -, -, rfl⟩ | ⟨i, ev, t, sh, t', ha, hi, hstep, rfl⟩ :=
    Executor.step_cases h
  · intro t ht
    rcases List.mem_append.1 ht with ht | ht
    · exact hs t ht
    · rw [List.mem_singleton.1 ht]
      exact hnew execution
  · intro u hu
    rcases List.mem_or_eq_of_mem_set hu with hu | rfl
    · exact hs u hu
    · have ht := List.mem_of_getElem? hi
      exact hkeep i ev t sh u ha ht hstep (hs t ht)

/-- The executions of the tasks and of the queue, oldest first. -/
def Executor.executions (s : Executor) : List JobExecution :=
  s.parts.map Task.execution ++ s.jobQueue

theorem Executor.step_executions {ex : JobExecutor} {jobs : List BackupJob} {s s' : Executor}
    {a : ExecutorAction} (h : s.step ex jobs a = some s') : s'.executions = s.executions := by
  obtain ⟨execution, rest, -, hq, rfl⟩ | ⟨i, ev, t, sh, t', -, hi, hstep, rfl⟩ :=
    Executor.step_cases h
  · simp [executions, hq]
  · have hexe := (Task.step_running hstep).1
    obtain ⟨hlt, rfl⟩ := List.getElem?_eq_some_iff.1 hi
    have hsame : (s.parts.set i t').map Task.execution = s.parts.map Task.execution := by
      have hlt' : i < (s.parts.map Task.execution).length := by simpa using hlt
      have hget : s.parts[i].execution = (s.parts.map Task.execution)[i] :=
        (List.getElem_map Task.execution).symm
      rw [List.map_set, hexe, hget, List.set_getElem_self]
    simp only [executions, hsame]

/-- The number of tasks of a device between `mark_running` and `mark_completed`. -/
def Executor.inFlight (s : Executor) (deviceId : String) : Nat :=
  s.parts.countP fun t => t.inFlight = some deviceId

/-! ## Registrations -/

/-- Every entry of `running_jobs` belongs to a task of its device and job that is in flight. -/
def Registered (s : Executor) : Prop :=
  ∀ (d : String) (j : Uuid), s.shared.runningJobs.lookup d = some j →
    ∃ (i : Nat) (t : Task), s.parts[i]? = some t ∧ t.inFlight = some d ∧ t.execution.jobId = j

theorem Registered.init (runs : RunsTable) (executions : List JobExecution) :
    Registered (.init runs executions) := by
  intro d j h
  simp [Executor.init] at h

/-- **Every step preserves the registrations**: an entry is written by its own task, and removed
    with it. -/
theorem Registered.step {ex : JobExecutor} {jobs : List BackupJob} {s s' : Executor}
    {a : ExecutorAction} (hs : Registered s) (h : s.step ex jobs a = some s') :
    Registered s' := by
  obtain ⟨execution, rest, -, -, rfl⟩ | ⟨i, ev, t, sh, t', -, hi, hstep, rfl⟩ :=
    Executor.step_cases h
  · intro d j hd
    obtain ⟨k, u, hk, hu⟩ := hs d j hd
    refine ⟨k, u, ?_, hu⟩
    rw [List.getElem?_append_left (List.getElem?_eq_some_iff.1 hk).1, hk]
  · have hself : (s.parts.set i t')[i]? = some t' :=
      List.getElem?_set_self (List.getElem?_eq_some_iff.1 hi).1
    -- an entry of another task is kept with that task
    have hother : ∀ d j, s.shared.runningJobs.lookup d = some j → t.inFlight ≠ some d →
        ∃ (k : Nat) (u : Task), (s.parts.set i t')[k]? = some u ∧ u.inFlight = some d ∧
          u.execution.jobId = j := by
      intro d j hd hne
      obtain ⟨k, u, hk, hu, hj⟩ := hs d j hd
      have hki : i ≠ k := by
        rintro rfl
        cases hi.symm.trans hk
        exact hne hu
      exact ⟨k, u, by rw [List.getElem?_set_ne hki, hk], hu, hj⟩
    intro d j hd
    obtain ⟨hexe, ⟨hfl, hrun⟩ | ⟨e, hfl, hfl', hrun⟩ | ⟨e, hfl, hfl', hrun⟩⟩ :=
      Task.step_running hstep
    · -- the registrations are as before
      change sh.runningJobs.lookup d = some j at hd
      rw [hrun] at hd
      obtain ⟨k, u, hk, hu, hj⟩ := hs d j hd
      rcases Nat.decEq k i with hki | rfl
      · exact ⟨k, u, by rw [List.getElem?_set_ne (Ne.symm hki), hk], hu, hj⟩
      · cases hi.symm.trans hk
        exact ⟨k, t', hself, by rw [hfl, hu], by rw [hexe, hj]⟩
    · -- `mark_running`: the entry of device `e` is now this task's
      change sh.runningJobs.lookup d = some j at hd
      rw [hrun, markRunning] at hd
      by_cases hde : d = e
      · subst hde
        rw [AList.lookup_insert, Option.some.injEq] at hd
        exact ⟨i, t', hself, hfl', by rw [hexe, hd]⟩
      · rw [AList.lookup_insert_ne hde] at hd
        exact hother d j hd (by rw [hfl]; simp)
    · -- `mark_completed`: device `e` has no entry left
      change sh.runningJobs.lookup d = some j at hd
      rw [hrun, markCompleted] at hd
      by_cases hde : d = e
      · subst hde
        rw [AList.lookup_erase] at hd
        cases hd
      · rw [AList.lookup_erase_ne hde] at hd
        exact hother d j hd (by rw [hfl, Ne, Option.some.injEq]; exact fun e' => hde e'.symm)

theorem registered_of_exec {ex : JobExecutor} {jobs : List BackupJob} {runs : RunsTable}
    {executions : List JobExecution} {as : List ExecutorAction} {s : Executor}
    (h : exec (Executor.step ex jobs) (.init runs executions) as = some s) : Registered s :=
  exec_invariant (fun _ _ _ hs hstep => hs.step hstep) (.init runs executions) h

/-- `can_execute` counts one entry or none: the map is keyed by device. -/
theorem running_count (running : HashMap String Uuid) (d : String) :
    (running.entries.filter fun e => e.1 == d).length = running.keys.count d := by
  rw [← List.countP_eq_length_filter, AList.keys, List.keys, List.count_eq_countP, List.countP_map]
  rfl

/-- A refusal takes a cap of 0, or a cap of 1 and an entry of the device. -/
theorem canExecute_false {ex : JobExecutor} {running : HashMap String Uuid} {d : String}
    (h : ex.canExecute running d = false) :
    ex.maxConcurrentPerDevice = 0 ∨
      (ex.maxConcurrentPerDevice = 1 ∧ ∃ j, running.lookup d = some j) := by
  have hle : running.keys.count d ≤ 1 := List.nodup_iff_count_le_one.1 running.keys_nodup d
  simp only [JobExecutor.canExecute, running_count, decide_eq_false_iff_not] at h
  by_cases hmem : d ∈ running
  · obtain ⟨j, hj⟩ := Option.isSome_iff_exists.1 (AList.lookup_isSome.2 hmem)
    have : ex.maxConcurrentPerDevice = 0 ∨ ex.maxConcurrentPerDevice = 1 := by omega
    exact this.imp id fun h1 => ⟨h1, j, hj⟩
  · rw [List.count_eq_zero.2 hmem] at h
    left
    omega

/-- A cap of one refuses a device with an entry. -/
theorem canExecute_of_lookup {ex : JobExecutor} {running : HashMap String Uuid} {d : String}
    {j : Uuid} (hm : ex.maxConcurrentPerDevice ≤ 1) (h : running.lookup d = some j) :
    ex.canExecute running d = false := by
  have hmem : d ∈ running.keys := AList.lookup_isSome.1 (by rw [h]; rfl)
  have hpos : 0 < running.keys.count d := List.count_pos_iff.2 hmem
  simp only [JobExecutor.canExecute, running_count, decide_eq_false_iff_not]
  omega

theorem Registered.refused {ex : JobExecutor} {s : Executor} (hs : Registered s) {d : String}
    (h : ex.canExecute s.shared.runningJobs d = false) :
    ex.maxConcurrentPerDevice ≤ s.inFlight d := by
  rcases canExecute_false h with h0 | ⟨h1, j, hj⟩
  · omega
  · obtain ⟨i, t, hi, hfl, -⟩ := hs d j hj
    have hpos : 0 < s.inFlight d := by
      rw [Executor.inFlight, List.countP_pos_iff]
      exact ⟨t, List.mem_of_getElem? hi, by simpa using hfl⟩
    omega

/-- **Registrations are sound**, for every cap and over every interleaving: each one belongs to
    a task of its device and job that is in flight, none is left when no task is, and a device is
    refused only while as many of its executions are in flight as the cap allows. -/
theorem registrations_sound (ex : JobExecutor) (jobs : List BackupJob) (runs : RunsTable)
    (executions : List JobExecution) (as : List ExecutorAction) (s : Executor)
    (h : exec (Executor.step ex jobs) (.init runs executions) as = some s) :
    (∀ d j, s.shared.runningJobs.lookup d = some j →
      ∃ t ∈ s.parts, t.inFlight = some d ∧ t.execution.jobId = j) ∧
    ((∀ t ∈ s.parts, t.inFlight = none) → s.shared.runningJobs = ∅) ∧
    ∀ d, ex.canExecute s.shared.runningJobs d = false →
      ex.maxConcurrentPerDevice ≤ s.inFlight d := by
  have hs := registered_of_exec h
  have hentry : ∀ d j, s.shared.runningJobs.lookup d = some j →
      ∃ t ∈ s.parts, t.inFlight = some d ∧ t.execution.jobId = j := by
    intro d j hd
    obtain ⟨i, t, hi, hrest⟩ := hs d j hd
    exact ⟨t, List.mem_of_getElem? hi, hrest⟩
  refine ⟨hentry, fun hnone => ?_, fun d hd => hs.refused hd⟩
  refine AList.ext (List.eq_nil_iff_forall_not_mem.2 fun e he => ?_)
  obtain ⟨t, ht, hfl, -⟩ := hentry e.1 e.2 (AList.mem_lookup_iff.2 he)
  rw [hnone t ht] at hfl
  cases hfl

/-- An executor whose restic output never decodes. -/
def JobExecutor.withCap (m : Nat) : JobExecutor where
  serde := .rejecting
  config := .ofRepository "sftp:user@host:/path" "secret"
  maxConcurrentPerDevice := m

/-- A task between `mark_running` and the start of its backup. -/
theorem registrations_sound_one_task :
    let jobs := [BackupJob.plain 1 "blade"]
    let as : List ExecutorAction :=
      [.recv, .task 0 (.getJobById none), .task 0 .canExecute, .task 0 .markRunning]
    ∃ s, exec (Executor.step (.withCap 1) jobs) (.init .empty [⟨1, "schedule"⟩]) as = some s ∧
      s.shared.runningJobs.lookup "blade" = some 1 ∧
      ∃ t ∈ s.parts, t.inFlight = some "blade" ∧ t.execution.jobId = 1 := by
  intro jobs as
  exact ⟨_, rfl, by decide,
    (registrations_sound (.withCap 1) jobs .empty [⟨1, "schedule"⟩] as _ rfl).1 "blade" 1
      (by decide)⟩

end RBackup2
