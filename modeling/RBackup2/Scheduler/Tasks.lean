import RBackup2.Scheduler.Cap

/-!
# What becomes of an execution

The tasks of the executor make calls of `execute_backup` on one table, so the invariant of
concurrent backups holds of them; and a task whose database calls succeed ends with a record of
its own, or refused.

* `Executor.RunsInv` — the invariant of the calls the tasks have made; `RunsInv.executorStep`.
* `Task.Served` — where a task stands that has met no failure; `Task.Served.step`.
* `Task.Served.finished` — it ends refused, or with a run record of its job.
-/

set_option autoImplicit false

namespace RBackup2

open Transition

/-! ## The calls of the tasks -/

/-- The calls of `execute_backup`, by the position of their tasks. -/
def Executor.calls (s : Executor) : Nat → Option BackupCall :=
  fun i => (s.parts[i]?).bind Task.call

/-- What a step does to the call of its task and to the table. -/
theorem Task.step_call {ex : JobExecutor} {jobs : List BackupJob} {sh sh' : Shared} {t t' : Task}
    {ev : TaskEvent} (h : t.step ex jobs sh ev = some (sh', t')) :
    (t'.call = t.call ∧ sh'.runs = sh.runs) ∨
    (t.call = none ∧ sh'.runs = sh.runs ∧ ∃ job, t'.call = some (.start job ex.config)) ∨
    ∃ call bev call', ev = .backup bev ∧ t.call = some call ∧ t'.call = some call' ∧
      call.step ex.serde sh.runs bev = some (sh'.runs, call') := by
  obtain ⟨err, -, hp, rfl, ⟨e, rfl⟩ | ⟨-, rfl⟩ | ⟨job, -, rfl⟩⟩ |
    ⟨job, -, hp, rfl, ⟨-, rfl⟩ | ⟨-, rfl⟩⟩ | ⟨job, -, hp, rfl, rfl⟩ | ⟨job, -, hp, rfl, rfl⟩ |
    ⟨job, call, bev, runs, call', rfl, hp, hstep, rfl, rfl⟩ |
    ⟨job, call, ret, -, hp, -, rfl, rfl⟩ := Task.step_cases h
  case inr.inr.inr.inl => exact .inr (.inl ⟨by simp [Task.call, hp], rfl, job, rfl⟩)
  case inr.inr.inr.inr.inl =>
    exact .inr (.inr ⟨call, bev, call', rfl, by simp [Task.call, hp], rfl, hstep⟩)
  all_goals exact .inl ⟨by simp [Task.call, hp], rfl⟩

theorem calls_set {tasks : List Task} {i : Nat} {t : Task} (hi : tasks[i]? = some t) (t' : Task) :
    (fun k : Nat => ((tasks.set i t')[k]?).bind Task.call) =
      Function.update (fun k : Nat => (tasks[k]?).bind Task.call) i t'.call := by
  have hset := getElem?_set_update (y := t') hi
  funext k
  rw [congrFun hset k]
  by_cases hk : k = i
  · subst hk
    rw [Function.update_self, Function.update_self, Option.bind_some]
  · rw [Function.update_of_ne hk, Function.update_of_ne hk]

/-- A task that has just been spawned has made no call. -/
theorem calls_append (tasks : List Task) (execution : JobExecution) :
    (fun k : Nat => ((tasks ++ [⟨execution, .received⟩])[k]?).bind Task.call) =
      fun k : Nat => (tasks[k]?).bind Task.call := by
  funext k
  rcases Nat.lt_or_ge k tasks.length with hk | hk
  · rw [List.getElem?_append_left hk]
  · rw [List.getElem?_append_right hk, List.getElem?_eq_none hk]
    cases k - tasks.length <;> rfl

/-- **The tasks keep the invariant of concurrent backups.** -/
theorem RunsInv.executorStep {ex : JobExecutor} {jobs : List BackupJob} {base : Int}
    {s s' : Executor} {a : ExecutorAction} (hs : RunsInv ex.serde base s.shared.runs s.calls)
    (h : s.step ex jobs a = some s') : RunsInv ex.serde base s'.shared.runs s'.calls := by
  obtain ⟨execution, rest, -, -, rfl⟩ | ⟨i, ev, t, sh, t', -, hi, hstep, rfl⟩ :=
    Executor.step_cases h
  · show RunsInv ex.serde base s.shared.runs
      (fun k => ((s.parts ++ [⟨execution, .received⟩])[k]?).bind Task.call)
    rw [calls_append]
    exact hs
  · have hcall : s.calls i = t.call := by
      unfold Executor.calls
      rw [hi, Option.bind_some]
    show RunsInv ex.serde base sh.runs (fun k => ((s.parts.set i t')[k]?).bind Task.call)
    rw [calls_set hi]
    change RunsInv ex.serde base sh.runs (Function.update s.calls i t'.call)
    rcases Task.step_call hstep with ⟨hsame, hruns⟩ | ⟨hnone, hruns, job, hnew⟩ |
      ⟨call, bev, call', -, hold, hnew, hcstep⟩
    · rw [hsame, hruns, ← hcall, Function.update_eq_self]
      exact hs
    · rw [hruns, hnew]
      exact hs.start (hcall.trans hnone) job ex.config
    · rw [hnew]
      exact hs.step (hcall.trans hold) hcstep

/-! ## Tasks that meet no failure -/

/-- The event is no database call that fails. -/
def TaskEvent.Succeeds : TaskEvent → Prop
  | .getJobById err => err = none
  | .backup (.createRun o _) => o = .done
  | .backup (.updateRun o _) => o = .done
  | _ => True

/-- Where a task stands whose database calls have all succeeded and whose job exists. -/
def Task.Served (t : Task) : Prop :=
  match t.phase with
  | .executing job call => call.job = job ∧ (call.pc ≠ .create → call.runId.isSome)
  | .finished (.ran job call) => call.job = job ∧ call.runId.isSome
  | .finished (.failed _) => False
  | .finished .notFound => False
  | _ => True

/-- A call whose INSERT succeeds has a record. -/
theorem BackupCall.step_served {serde : SerdeJson} {t t' : RunsTable} {c c' : BackupCall}
    {ev : BackupEvent} (h : c.step serde t ev = some (t', c'))
    (hev : TaskEvent.Succeeds (.backup ev)) (hc : c.pc ≠ .create → c.runId.isSome) :
    c'.job = c.job ∧ c'.runId.isSome := by
  obtain ⟨o, now, rfl, hpc, -, ⟨-, rfl⟩ | ⟨e, rfl⟩⟩ |
    ⟨os, which, spawn, runId, -, hpc, -, ⟨e, rfl⟩ | ⟨r, rfl⟩⟩ |
    ⟨o, now, runId, u, ret, ret', -, hpc, -, rfl⟩ := BackupCall.step_cases h
  · exact ⟨rfl, rfl⟩
  · -- an INSERT that succeeds does not return an error
    cases hev
    simp [BackupCall.step, hpc, createRun, DbOutcome.result] at h
  all_goals
    refine ⟨rfl, hc ?_⟩
    rw [hpc]
    intro hcreate
    cases hcreate

theorem Task.Served.step {ex : JobExecutor} {jobs : List BackupJob} {sh sh' : Shared}
    {t t' : Task} {ev : TaskEvent} (ht : t.Served)
    (hjob : (getJobById jobs t.execution.jobId).isSome) (hev : ev.Succeeds)
    (h : t.step ex jobs sh ev = some (sh', t')) : t'.Served := by
  obtain ⟨err, rfl, hp, -, ⟨e, rfl⟩ | ⟨hnone, rfl⟩ | ⟨job, -, rfl⟩⟩ |
    ⟨job, -, hp, -, ⟨-, rfl⟩ | ⟨-, rfl⟩⟩ | ⟨job, -, hp, -, rfl⟩ | ⟨job, -, hp, -, rfl⟩ |
    ⟨job, call, bev, runs, call', rfl, hp, hstep, -, rfl⟩ | ⟨job, call, ret, -, hp, hpc, -, rfl⟩ :=
    Task.step_cases h
  · -- a SELECT that succeeds does not return an error
    cases hev
    simp only [Task.step, hp] at h
    split at h <;> cases h
  · rw [hnone] at hjob
    cases hjob
  · trivial
  · trivial
  · trivial
  · trivial
  · exact ⟨rfl, fun hne => absurd rfl hne⟩
  · simp only [Task.Served, hp] at ht
    obtain ⟨hjob', hrun⟩ := BackupCall.step_served hstep hev ht.2
    exact ⟨hjob'.trans ht.1, fun _ => hrun⟩
  · simp only [Task.Served, hp] at ht
    refine ⟨ht.1, ht.2 ?_⟩
    rw [hpc]
    intro hcreate
    cases hcreate

/-- **What such a task ends with**: it was refused, or its call has a record of its job. -/
theorem Task.Served.finished {serde : SerdeJson} {base : Int} {runs : RunsTable}
    {calls : Nat → Option BackupCall} (hruns : RunsInv serde base runs calls)
    {jobs : List BackupJob} {t : Task} (ht : t.Served) (hread : t.Read jobs) {i : Nat}
    (hi : calls i = t.call) {e : TaskEnd} (he : t.phase = .finished e) :
    (∃ job, e = .refused job) ∨
      ∃ job call id r, e = .ran job call ∧ call.runId = some id ∧ base ≤ id ∧
        runs.find id = some r ∧ r.jobId = t.execution.jobId := by
  cases e with
  | failed err => simp [Task.Served, he] at ht
  | notFound => simp [Task.Served, he] at ht
  | refused job => exact .inl ⟨job, rfl⟩
  | ran job call =>
    right
    simp only [Task.Served, he] at ht
    obtain ⟨id, hid⟩ := Option.isSome_iff_exists.1 ht.2
    have hcall : calls i = some call := by rw [hi]; simp [Task.call, he]
    obtain ⟨hbase, r, hr, hrjob, -⟩ := (hruns.each i call hcall).row id hid
    refine ⟨job, call, id, r, rfl, hid, hbase, hr, ?_⟩
    have hjob : getJobById jobs t.execution.jobId = some job := hread job (by simp [Task.job, he])
    rw [hrjob, ht.1, getJobById_id hjob]

end RBackup2
