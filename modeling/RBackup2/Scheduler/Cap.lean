import RBackup2.Scheduler.Executor

/-!
# The concurrency cap

`max_concurrent_per_device` is checked by `can_execute` and taken up by a later `mark_running`,
and `running_jobs` keeps one entry a device.  So any number of tasks can pass the check before
the first of them registers, and a cap of two or more is never reached.

* `Task.Read` — a task that knows its job has read it from the table.
* `inFlight_le_targets` — a device never has more tasks in flight than executions for it.
* `inFlight_le_one_of_stillAdmitted` — a cap of one holds if each task registers while its check
  still stands.
* `exec_pileUp` — the interleaving in which every task checks before any task registers.
* `cap_iff` — the cap holds in every reachable state exactly when no device is given more
  executions than the cap.
-/

set_option autoImplicit false

namespace RBackup2

open Transition

/-- The execution is for a job of the device. -/
def Targets (jobs : List BackupJob) (deviceId : String) (execution : JobExecution) : Prop :=
  (getJobById jobs execution.jobId).map BackupJob.deviceId = some deviceId

instance (jobs : List BackupJob) (deviceId : String) (execution : JobExecution) :
    Decidable (Targets jobs deviceId execution) := inferInstanceAs (Decidable (_ = _))

/-! ## What a task has read -/

/-- The job of a task is the row of `backup_jobs` its execution names. -/
def Task.Read (jobs : List BackupJob) (t : Task) : Prop :=
  ∀ job, t.job = some job → getJobById jobs t.execution.jobId = some job

theorem Task.Read.step {ex : JobExecutor} {jobs : List BackupJob} {sh sh' : Shared} {t t' : Task}
    {ev : TaskEvent} (ht : t.Read jobs) (h : t.step ex jobs sh ev = some (sh', t')) :
    t'.Read jobs := by
  -- the job stays the one that was read
  have keep : t'.execution = t.execution → t'.job = t.job → t'.Read jobs := by
    intro hexe hjob job hj
    rw [hexe]
    exact ht job (hjob ▸ hj)
  obtain ⟨err, -, hp, -, ⟨e, rfl⟩ | ⟨-, rfl⟩ | ⟨job, hfound, rfl⟩⟩ |
    ⟨job, -, hp, -, ⟨-, rfl⟩ | ⟨-, rfl⟩⟩ | ⟨job, -, hp, -, rfl⟩ | ⟨job, -, hp, -, rfl⟩ |
    ⟨job, call, bev, runs, call', -, hp, -, -, rfl⟩ | ⟨job, call, ret, -, hp, -, -, rfl⟩ :=
    Task.step_cases h
  case inl.inr.inr =>
    intro job' hjob'
    cases hjob'
    exact hfound
  all_goals exact keep rfl (by simp [Task.job, hp])

theorem Executor.read_step {ex : JobExecutor} {jobs : List BackupJob} {s s' : Executor}
    {a : ExecutorAction} (hs : ∀ t ∈ s.parts, t.Read jobs) (h : s.step ex jobs a = some s') :
    ∀ t ∈ s'.parts, t.Read jobs := by
  refine Executor.forall_parts_step ?_ (fun _ _ _ _ _ _ _ hstep ht => ht.step hstep) hs h
  intro execution job hjob
  cases hjob

theorem Task.Read.targets {jobs : List BackupJob} {t : Task} (ht : t.Read jobs) {d : String}
    (h : t.inFlight = some d) : Targets jobs d t.execution := by
  unfold Task.inFlight at h
  split at h
  · rename_i job hp
    rw [Targets, ht job (by simp [Task.job, hp]), Option.map_some, h]
  · rename_i job call hp
    rw [Targets, ht job (by simp [Task.job, hp]), Option.map_some, h]
  · cases h

/-- A device never has more tasks in flight than it was given executions. -/
theorem inFlight_le_targets {ex : JobExecutor} {jobs : List BackupJob} {runs : RunsTable}
    {executions : List JobExecution} {as : List ExecutorAction} {s : Executor}
    (h : exec (Executor.step ex jobs) (.init runs executions) as = some s) (d : String) :
    s.inFlight d ≤ executions.countP fun e => Targets jobs d e := by
  have hread : ∀ t ∈ s.parts, t.Read jobs :=
    exec_invariant (fun _ _ _ hs hstep => Executor.read_step hs hstep)
      (by intro t ht; cases ht) h
  have hexe : s.executions = executions :=
    exec_invariant (I := fun s => s.executions = executions)
      (fun _ _ _ hs hstep => (Executor.step_executions hstep).trans hs) rfl h
  calc s.inFlight d
      ≤ s.parts.countP fun t => Targets jobs d t.execution :=
        List.countP_mono_left fun t ht hd => by
          have := (hread t ht).targets (d := d) (by simpa using hd)
          simpa using this
    _ = (s.parts.map Task.execution).countP fun e => Targets jobs d e := by
        rw [List.countP_map]; rfl
    _ ≤ s.executions.countP fun e => Targets jobs d e := by
        rw [Executor.executions, List.countP_append]; omega
    _ = executions.countP fun e => Targets jobs d e := by rw [hexe]

/-! ## Check first, register later -/

/-- A task whose job exists has been admitted, any other one is over. -/
def Task.checked (jobs : List BackupJob) (e : JobExecution) : Task :=
  match getJobById jobs e.jobId with
  | none => ⟨e, .finished .notFound⟩
  | some job => ⟨e, .admitted job⟩

/-- The same tasks after `mark_running`. -/
def Task.piledUp (jobs : List BackupJob) (e : JobExecution) : Task :=
  match getJobById jobs e.jobId with
  | none => ⟨e, .finished .notFound⟩
  | some job => ⟨e, .marked job⟩

/-- The registrations of a pile-up: the last task of a device wins. -/
def register (jobs : List BackupJob) (sh : Shared) (e : JobExecution) : Shared :=
  match getJobById jobs e.jobId with
  | none => sh
  | some job => { sh with runningJobs := markRunning job.deviceId e.jobId sh.runningJobs }

def checkActions (jobs : List BackupJob) (i : Nat) (e : JobExecution) : List ExecutorAction :=
  match getJobById jobs e.jobId with
  | none => [.task i (.getJobById none)]
  | some _ => [.task i (.getJobById none), .task i .canExecute]

def registerActions (jobs : List BackupJob) (i : Nat) (e : JobExecution) : List ExecutorAction :=
  match getJobById jobs e.jobId with
  | none => []
  | some _ => [.task i .markRunning]

/-- Receive everything, check everything, register everything. -/
def pileUp (jobs : List BackupJob) (executions : List JobExecution) : List ExecutorAction :=
  executions.map (fun _ => .recv) ++ (sweep (checkActions jobs) 0 executions ++
    sweep (registerActions jobs) 0 executions)

/-- A step of the task that stands after `done`. -/
theorem Executor.step_at {ex : JobExecutor} {jobs : List BackupJob} {sh sh' : Shared} {t t' : Task}
    {ev : TaskEvent} (h : t.step ex jobs sh ev = some (sh', t')) (done rest : List Task)
    (queue : List JobExecution) :
    Executor.step ex jobs ⟨⟨sh, done ++ t :: rest⟩, queue⟩ (.task done.length ev) =
      some ⟨⟨sh', done ++ t' :: rest⟩, queue⟩ := by
  simp only [Executor.step, Interleaving.step_at h]

theorem exec_recv (ex : JobExecutor) (jobs : List BackupJob) (sh : Shared) :
    ∀ (executions : List JobExecution) (tasks : List Task),
      exec (Executor.step ex jobs) ⟨⟨sh, tasks⟩, executions⟩ (executions.map fun _ => .recv) =
        some ⟨⟨sh, tasks ++ executions.map fun e => ⟨e, .received⟩⟩, []⟩
  | [], tasks => by simp
  | e :: executions, tasks => by
    have hrest := exec_recv ex jobs sh executions (tasks ++ [⟨e, .received⟩])
    rw [List.append_assoc] at hrest
    exact exec_cons.2 ⟨_, rfl, hrest⟩

theorem exec_check {ex : JobExecutor} {jobs : List BackupJob} (runs : RunsTable)
    (hm : 1 ≤ ex.maxConcurrentPerDevice) (executions : List JobExecution) :
    exec (Executor.step ex jobs) ⟨⟨⟨∅, runs⟩, executions.map fun e => ⟨e, .received⟩⟩, []⟩
      (sweep (checkActions jobs) 0 executions) =
        some ⟨⟨⟨∅, runs⟩, executions.map (Task.checked jobs)⟩, []⟩ := by
  have hcan : ∀ d, ex.canExecute ∅ d = true := by
    intro d
    simp only [JobExecutor.canExecute, running_count, decide_eq_true_eq]
    show ([] : List String).count d < ex.maxConcurrentPerDevice
    rw [List.count_nil]
    omega
  refine exec_sweep (fun (_ : Unit) tasks => (⟨⟨⟨∅, runs⟩, tasks⟩, []⟩ : Executor))
    (checkActions jobs) (fun _ _ => ()) (fun e => ⟨e, .received⟩) (Task.checked jobs) ?_
    executions [] ()
  intro _ done e rest
  cases hj : getJobById jobs e.jobId with
  | none =>
    have hread : Task.step ex jobs ⟨∅, runs⟩ ⟨e, .received⟩ (.getJobById none) =
        some (⟨∅, runs⟩, ⟨e, .finished .notFound⟩) := by simp only [Task.step, hj]
    simp only [checkActions, Task.checked, hj]
    exact exec_cons.2 ⟨_, Executor.step_at hread done rest [], rfl⟩
  | some job =>
    have hread : Task.step ex jobs ⟨∅, runs⟩ ⟨e, .received⟩ (.getJobById none) =
        some (⟨∅, runs⟩, ⟨e, .found job⟩) := by simp only [Task.step, hj]
    have hcheck : Task.step ex jobs ⟨∅, runs⟩ ⟨e, .found job⟩ .canExecute =
        some (⟨∅, runs⟩, ⟨e, .admitted job⟩) := by simp [Task.step, hcan]
    simp only [checkActions, Task.checked, hj]
    exact exec_cons.2 ⟨_, Executor.step_at hread done rest [],
      exec_cons.2 ⟨_, Executor.step_at hcheck done rest [], rfl⟩⟩

theorem exec_register {ex : JobExecutor} {jobs : List BackupJob} (sh : Shared)
    (executions : List JobExecution) :
    exec (Executor.step ex jobs) ⟨⟨sh, executions.map (Task.checked jobs)⟩, []⟩
      (sweep (registerActions jobs) 0 executions) =
        some ⟨⟨executions.foldl (register jobs) sh, executions.map (Task.piledUp jobs)⟩, []⟩ := by
  refine exec_sweep (fun sh tasks => (⟨⟨sh, tasks⟩, []⟩ : Executor)) (registerActions jobs)
    (register jobs) (Task.checked jobs) (Task.piledUp jobs) ?_ executions [] sh
  intro sh done e rest
  cases hj : getJobById jobs e.jobId with
  | none => simp only [registerActions, Task.checked, Task.piledUp, register, hj, exec_nil]
  | some job =>
    have hmark : Task.step ex jobs sh ⟨e, .admitted job⟩ .markRunning =
        some ({ sh with runningJobs := markRunning job.deviceId e.jobId sh.runningJobs },
          ⟨e, .marked job⟩) := rfl
    simp only [registerActions, Task.checked, Task.piledUp, register, hj]
    exact exec_cons.2 ⟨_, Executor.step_at hmark done rest [], rfl⟩

/-- **The pile-up**: with a cap of at least one, every task can be in flight at once. -/
theorem exec_pileUp {ex : JobExecutor} (jobs : List BackupJob) (runs : RunsTable)
    (hm : 1 ≤ ex.maxConcurrentPerDevice) (executions : List JobExecution) :
    exec (Executor.step ex jobs) (.init runs executions) (pileUp jobs executions) =
      some ⟨⟨executions.foldl (register jobs) ⟨∅, runs⟩, executions.map (Task.piledUp jobs)⟩, []⟩ :=
  exec_append.2 ⟨_, exec_recv ex jobs ⟨∅, runs⟩ executions [],
    exec_append.2 ⟨_, exec_check runs hm executions, exec_register ⟨∅, runs⟩ executions⟩⟩

theorem inFlight_piledUp (jobs : List BackupJob) (e : JobExecution) (d : String) :
    (Task.piledUp jobs e).inFlight = some d ↔ Targets jobs d e := by
  unfold Task.piledUp Targets
  cases getJobById jobs e.jobId with
  | none => simp [Task.inFlight]
  | some job => simp [Task.inFlight]

/-! ## The window between the check and the registration -/

/-- A `mark_running` is taken while `can_execute` would still admit its device. -/
def StillAdmitted (ex : JobExecutor) (s : Executor) (a : ExecutorAction) : Prop :=
  ∀ i (t : Task) (job : BackupJob), a = .task i .markRunning → s.parts[i]? = some t →
    t.phase = .admitted job → ex.canExecute s.shared.runningJobs job.deviceId = true

/-- A device has one task in flight and its registration, or none. -/
def OneEach (s : Executor) : Prop :=
  ∀ d, s.inFlight d ≤ 1 ∧ (s.inFlight d = 1 → ∃ j, s.shared.runningJobs.lookup d = some j)

theorem OneEach.step {ex : JobExecutor} {jobs : List BackupJob} {s s' : Executor}
    {a : ExecutorAction} (hm : ex.maxConcurrentPerDevice = 1) (hs : OneEach s)
    (hg : StillAdmitted ex s a) (h : s.step ex jobs a = some s') : OneEach s' := by
  obtain ⟨execution, rest, -, -, rfl⟩ | ⟨i, ev, t, sh, t', rfl, hi, hstep, rfl⟩ :=
    Executor.step_cases h
  · intro d
    have hsame : (⟨⟨s.shared, s.parts ++ [⟨execution, .received⟩]⟩, rest⟩ : Executor).inFlight d =
        s.inFlight d := by
      unfold Executor.inFlight
      rw [List.countP_append]
      rfl
    rw [hsame]
    exact hs d
  · intro d
    have hcount := countP_set_add hi t' fun u => decide (u.inFlight = some d)
    simp only [decide_eq_true_eq] at hcount
    change _ = s.inFlight d + _ at hcount
    obtain ⟨hle, hreg⟩ := hs d
    show ((s.parts.set i t').countP fun u => u.inFlight = some d) ≤ 1 ∧
      (((s.parts.set i t').countP fun u => u.inFlight = some d) = 1 →
        ∃ j, sh.runningJobs.lookup d = some j)
    obtain ⟨-, ⟨hfl, hrun⟩ | ⟨e, hfl, hfl', hrun⟩ | ⟨e, hfl, hfl', hrun⟩⟩ :=
      Task.step_running hstep
    · rw [hfl] at hcount
      rw [hrun]
      exact ⟨by omega, fun h1 => hreg (by omega)⟩
    · rw [hfl, hfl'] at hcount
      rw [hrun, markRunning]
      by_cases hde : d = e
      · subst hde
        -- the check still stands, so the device has no entry and nothing in flight
        have hnone : ¬ ∃ j, s.shared.runningJobs.lookup d = some j := by
          obtain ⟨job, hev, hp, rfl⟩ := Task.admitted_of_registers hstep hfl hfl'
          have hcan := hg i t job (by rw [hev]) hi hp
          rintro ⟨j, hj⟩
          rw [canExecute_of_lookup (by omega) hj] at hcan
          cases hcan
        have hzero : s.inFlight d = 0 := by
          by_contra hne
          exact hnone (hreg (by omega))
        simp only [reduceCtorEq, if_false, if_true] at hcount
        exact ⟨by omega, fun _ => ⟨_, AList.lookup_insert _⟩⟩
      · have hne : ¬ some e = some d := by
          rw [Option.some.injEq]
          exact fun h => hde h.symm
        simp only [reduceCtorEq, hne, if_false] at hcount
        rw [AList.lookup_insert_ne hde]
        exact ⟨by omega, fun h1 => hreg (by omega)⟩
    · rw [hfl, hfl'] at hcount
      rw [hrun, markCompleted]
      by_cases hde : d = e
      · subst hde
        simp only [reduceCtorEq, if_false, if_true] at hcount
        exact ⟨by omega, fun h1 => absurd h1 (by omega)⟩
      · have hne : ¬ some e = some d := by
          rw [Option.some.injEq]
          exact fun h => hde h.symm
        simp only [reduceCtorEq, hne, if_false] at hcount
        rw [AList.lookup_erase_ne hde]
        exact ⟨by omega, fun h1 => hreg (by omega)⟩

/-- **A cap of one fails only through the window**: it holds in every run in which each task
    registers while its check still stands. -/
theorem inFlight_le_one_of_stillAdmitted {ex : JobExecutor} (hm : ex.maxConcurrentPerDevice = 1)
    {jobs : List BackupJob} {runs : RunsTable} {executions : List JobExecution}
    {as : List ExecutorAction} {s : Executor}
    (hg : Along (Executor.step ex jobs) (StillAdmitted ex) (.init runs executions) as)
    (h : exec (Executor.step ex jobs) (.init runs executions) as = some s) (d : String) :
    s.inFlight d ≤ 1 := by
  have h0 : OneEach (.init runs executions) := by
    intro d
    exact ⟨Nat.zero_le _, fun h1 => by cases h1⟩
  exact (exec_along (fun _ _ _ hs hg hstep => hs.step hm hg hstep) h0 hg h d).1

/-! ## Exactly when the cap holds -/

/-- **The cap holds in every reachable state of every interleaving exactly when** no device is
    given more executions than the cap. -/
theorem cap_iff (ex : JobExecutor) (hm : 1 ≤ ex.maxConcurrentPerDevice) (jobs : List BackupJob)
    (runs : RunsTable) (executions : List JobExecution) :
    (∀ as s, exec (Executor.step ex jobs) (.init runs executions) as = some s →
      ∀ d, s.inFlight d ≤ ex.maxConcurrentPerDevice) ↔
    ∀ d, (executions.countP fun e => Targets jobs d e) ≤ ex.maxConcurrentPerDevice := by
  constructor
  · intro hcap d
    have hd := hcap _ _ (exec_pileUp jobs runs hm executions) d
    have hcount : (executions.countP fun e => Targets jobs d e) =
        (executions.map (Task.piledUp jobs)).countP fun t => t.inFlight = some d := by
      rw [List.countP_map]
      refine List.countP_congr fun e _ => ?_
      simp [inFlight_piledUp]
    rw [hcount]
    exact hd
  · intro hfew as s h d
    exact Nat.le_trans (inFlight_le_targets h d) (hfew d)

/-- A cap of one and one execution for each of two devices: the cap holds however they run. -/
theorem cap_iff_two_devices :
    let jobs := [BackupJob.plain 1 "blade", BackupJob.plain 2 "server"]
    let executions := [JobExecution.mk 1 "schedule", JobExecution.mk 2 "schedule"]
    ∀ as s, exec (Executor.step (.withCap 1) jobs) (.init .empty executions) as = some s →
      ∀ d, s.inFlight d ≤ 1 := by
  intro jobs executions
  have hfew : ∀ d, (executions.countP fun e => Targets jobs d e) ≤ 1 := by
    intro d
    have hfirst : Targets jobs d ⟨1, "schedule"⟩ ↔ "blade" = d := Option.some_inj
    have hsecond : Targets jobs d ⟨2, "schedule"⟩ ↔ "server" = d := Option.some_inj
    by_cases hd : "blade" = d
    · subst hd
      decide
    · simp only [executions, List.countP_cons, List.countP_nil, hfirst, hsecond, hd]
      split <;> decide
  exact (cap_iff (.withCap 1) (by decide) jobs .empty executions).2 hfew

/-- A cap of one, two executions for one device: both tasks check before either registers. -/
theorem cap_exceeded :
    ¬ ∀ (ex : JobExecutor), 1 ≤ ex.maxConcurrentPerDevice →
      ∀ (jobs : List BackupJob) (runs : RunsTable) (executions : List JobExecution)
        (as : List ExecutorAction) (s : Executor),
        exec (Executor.step ex jobs) (.init runs executions) as = some s →
          ∀ d, s.inFlight d ≤ ex.maxConcurrentPerDevice := by
  intro h
  have hcap := h (.withCap 1) (by decide) [.plain 1 "blade", .plain 2 "blade"] .empty
    [⟨1, "schedule"⟩, ⟨2, "schedule"⟩] _ _
    (exec_pileUp [.plain 1 "blade", .plain 2 "blade"] .empty (by decide) _) "blade"
  exact absurd hcap (by decide)

end RBackup2
