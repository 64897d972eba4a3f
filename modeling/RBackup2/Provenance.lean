import Mathlib.Data.Set.Operations
import RBackup2.Client

/-!
# Where a run comes from

An execution carries its `triggered_by` from `queue_job` or `trigger_manual_backup` through the
channel to its task.  `execute_backup` is not given it: the INSERT has the literal `"manual"`.

* `RecordsTrigger` — the condition on a step: the INSERT that takes effect is for a manual
  execution.
* `Traced` — each row that was created has the task that created it, and no task has two.
* `run_provenance` — in every run whose steps meet the condition, the rows created go one to one to
  executions received, with their job and trigger.
-/

set_option autoImplicit false

namespace RBackup2

open Transition

/-- **The condition on a step**: an INSERT of `create_run` that takes effect is for a manual
    execution. -/
def RecordsTrigger (c : Client) : ClientAction → Prop
  | .executor (.task i (.backup (.createRun o _))) => o.applied = true →
      ∀ t, c.executor.parts[i]? = some t → t.execution.triggeredBy = "manual"
  | _ => True

/-! ## Tasks and their jobs -/

/-- What the task works on is the job of its execution. -/
structure Task.OfJob (t : Task) : Prop where
  job : ∀ job, t.job = some job → job.id = t.execution.jobId
  call : ∀ call, t.call = some call → call.job.id = t.execution.jobId

theorem BackupCall.step_job {serde : SerdeJson} {t t' : RunsTable} {c c' : BackupCall}
    {ev : BackupEvent} (h : c.step serde t ev = some (t', c')) : c'.job = c.job := by
  obtain ⟨o, now, -, -, -, ⟨-, rfl⟩ | ⟨e, rfl⟩⟩ |
    ⟨os, which, spawn, runId, -, -, -, ⟨e, rfl⟩ | ⟨r, rfl⟩⟩ |
    ⟨o, now, runId, u, ret, ret', -, -, -, rfl⟩ := BackupCall.step_cases h
  all_goals rfl

theorem Task.OfJob.step {ex : JobExecutor} {jobs : List BackupJob} {sh sh' : Shared} {t t' : Task}
    {ev : TaskEvent} (ht : t.OfJob) (h : t.step ex jobs sh ev = some (sh', t')) : t'.OfJob := by
  obtain ⟨err, -, hp, -, ⟨e, rfl⟩ | ⟨-, rfl⟩ | ⟨job, hfound, rfl⟩⟩ |
    ⟨job, -, hp, -, ⟨-, rfl⟩ | ⟨-, rfl⟩⟩ | ⟨job, -, hp, -, rfl⟩ | ⟨job, -, hp, -, rfl⟩ |
    ⟨job, call, bev, runs, call', -, hp, hstep, -, rfl⟩ | ⟨job, call, ret, -, hp, -, -, rfl⟩ :=
    Task.step_cases h
  case inl.inr.inr =>
    refine ⟨fun j hj => ?_, fun call hcall => (by cases hcall)⟩
    cases hj
    exact getJobById_id hfound
  case inr.inr.inr.inl =>
    have hjob := ht.job job (by simp [Task.job, hp])
    refine ⟨fun j hj => ?_, fun call hcall => ?_⟩
    · cases hj
      exact hjob
    · cases hcall
      exact hjob
  case inr.inr.inr.inr.inl =>
    have hjob := ht.job job (by simp [Task.job, hp])
    have hcall := ht.call call (by simp [Task.call, hp])
    refine ⟨fun j hj => ?_, fun c hc => ?_⟩
    · cases hj
      exact hjob
    · cases hc
      rw [BackupCall.step_job hstep]
      exact hcall
  all_goals
    have hjob := ht.job
    have hcall := ht.call
    simp only [Task.job, Task.call, hp] at hjob hcall
    exact ⟨hjob, hcall⟩

theorem Executor.ofJob_step {ex : JobExecutor} {jobs : List BackupJob} {s s' : Executor}
    {a : ExecutorAction} (hs : ∀ t ∈ s.parts, t.OfJob) (h : s.step ex jobs a = some s') :
    ∀ t ∈ s'.parts, t.OfJob := by
  refine Executor.forall_parts_step ?_ (fun _ _ _ _ _ _ _ hstep ht => ht.step hstep) hs h
  exact fun execution => ⟨fun job hjob => (by cases hjob), fun call hcall => (by cases hcall)⟩

/-- The task is past the INSERT of its backup. -/
def Task.PastInsert (t : Task) : Prop := ∃ call, t.call = some call ∧ call.pc ≠ .create

/-! ## The tasks of the rows -/

/-- **Rows and their tasks**: `f` takes the id of each row that was created to the task that did. -/
structure Traced (base : Int) (s : Executor) (f : Int → Nat) : Prop where
  base_le : base ≤ s.shared.runs.nextId
  task : ∀ r ∈ s.shared.runs.rows, base ≤ r.id → ∃ t, s.parts[f r.id]? = some t ∧ t.PastInsert ∧
    r.jobId = t.execution.jobId ∧ r.triggeredBy = t.execution.triggeredBy
  distinct : ∀ r ∈ s.shared.runs.rows, ∀ r' ∈ s.shared.runs.rows, base ≤ r.id → base ≤ r'.id →
    f r.id = f r'.id → r.id = r'.id

theorem Traced.init (runs : RunsTable) (executions : List JobExecution) :
    Traced runs.nextId (.init runs executions) fun _ => 0 := by
  have hold : ∀ r ∈ runs.rows, ¬ runs.nextId ≤ r.id := by
    intro r hr hle
    have hlt := runs.ids_lt r hr
    omega
  exact ⟨Int.le_refl _, fun r hr hle => absurd hle (hold r hr),
    fun r hr _ _ hle => absurd hle (hold r hr)⟩

/-- The rows of a table are those of an earlier one, as far as their origin goes. -/
structure SameOrigins (t t' : RunsTable) : Prop where
  nextId : t.nextId ≤ t'.nextId
  rows : ∀ r' ∈ t'.rows, ∃ r ∈ t.rows, r.id = r'.id ∧ r.jobId = r'.jobId ∧
    r.triggeredBy = r'.triggeredBy

theorem SameOrigins.refl (t : RunsTable) : SameOrigins t t :=
  ⟨Int.le_refl _, fun r hr => ⟨r, hr, rfl, rfl, rfl⟩⟩

/-- An UPDATE does not touch the origin of a row. -/
theorem SameOrigins.update (t : RunsTable) (id : Int) (endTime : DateTime) (u : RunUpdate) :
    SameOrigins t (t.update id endTime u) := by
  refine ⟨Int.le_refl _, fun r' hr' => ?_⟩
  obtain ⟨r, hr, rfl⟩ := List.mem_map.1 hr'
  refine ⟨r, hr, ?_⟩
  split
  · exact ⟨rfl, rfl, rfl⟩
  · exact ⟨rfl, rfl, rfl⟩

/-- A call creates a row, or leaves the origins alone; afterwards it is past its INSERT. -/
theorem BackupCall.step_origins {serde : SerdeJson} {t t' : RunsTable} {c c' : BackupCall}
    {ev : BackupEvent} (h : c.step serde t ev = some (t', c')) : c'.pc ≠ .create ∧
      (SameOrigins t t' ∨ ∃ o now, ev = .createRun o now ∧ o.applied = true ∧ c.pc = .create ∧
        t' = t.insert c.job.id c.job.deviceId "manual" now) := by
  obtain ⟨o, now, rfl, hpc, rfl, hend⟩ | ⟨os, which, spawn, runId, -, -, rfl, hend⟩ |
    ⟨o, now, runId, u, ret, ret', -, -, rfl, rfl⟩ := BackupCall.step_cases h
  · refine ⟨?_, ?_⟩
    · rcases hend with ⟨-, rfl⟩ | ⟨e, rfl⟩
      · exact fun hcreate => (by cases hcreate)
      · exact fun hcreate => (by cases hcreate)
    · by_cases ho : o.applied = true
      · rw [if_pos ho]
        exact .inr ⟨o, now, rfl, ho, hpc, rfl⟩
      · rw [if_neg ho]
        exact .inl (.refl t)
  · refine ⟨?_, .inl (.refl t')⟩
    rcases hend with ⟨e, rfl⟩ | ⟨r, rfl⟩
    · exact fun hcreate => (by cases hcreate)
    · exact fun hcreate => (by cases hcreate)
  · refine ⟨fun hcreate => (by cases hcreate), .inl ?_⟩
    split
    · exact .update t runId now u
    · exact .refl t

/-- A step that creates no row: the rows keep where they are from, and the tasks their calls. -/
theorem Traced.mono {base : Int} {s s' : Executor} {f : Int → Nat} (hs : Traced base s f)
    (hrows : SameOrigins s.shared.runs s'.shared.runs)
    (hparts : ∀ (i : Nat) (t : Task), s.parts[i]? = some t → t.PastInsert →
      ∃ t' : Task, s'.parts[i]? = some t' ∧ t'.PastInsert ∧ t'.execution = t.execution) :
    Traced base s' f := by
  refine ⟨Int.le_trans hs.base_le hrows.nextId, ?_, ?_⟩
  · intro r' hr' hle
    obtain ⟨r, hr, hid, hjob, htrig⟩ := hrows.rows r' hr'
    rw [← hid] at hle ⊢
    obtain ⟨t, ht, hpast, htjob, httrig⟩ := hs.task r hr hle
    obtain ⟨t', ht', hpast', hexe⟩ := hparts _ t ht hpast
    refine ⟨t', ht', hpast', ?_, ?_⟩
    · rw [← hjob, hexe]
      exact htjob
    · rw [← htrig, hexe]
      exact httrig
  · intro r₁ hr₁ r₂ hr₂ hle₁ hle₂ heq
    obtain ⟨x₁, hx₁, hid₁, -⟩ := hrows.rows r₁ hr₁
    obtain ⟨x₂, hx₂, hid₂, -⟩ := hrows.rows r₂ hr₂
    rw [← hid₁] at hle₁ heq ⊢
    rw [← hid₂] at hle₂ heq ⊢
    exact hs.distinct x₁ hx₁ x₂ hx₂ hle₁ hle₂ heq

/-- The INSERT of task `i` takes effect. -/
theorem Traced.insert {base : Int} {s : Executor} {f : Int → Nat} (hs : Traced base s f) {i : Nat}
    {t t' : Task} (hi : s.parts[i]? = some t) (hnot : ¬ t.PastInsert) (hpast : t'.PastInsert)
    (hexe : t'.execution = t.execution) (deviceId triggeredBy : String) (now : DateTime)
    (htrig : triggeredBy = t.execution.triggeredBy) (running : HashMap String Uuid) :
    Traced base ⟨⟨⟨running, s.shared.runs.insert t.execution.jobId deviceId triggeredBy now⟩,
      s.parts.set i t'⟩, s.jobQueue⟩ (Function.update f s.shared.runs.nextId i) := by
  have hself : (s.parts.set i t')[i]? = some t' :=
    List.getElem?_set_self (List.getElem?_eq_some_iff.1 hi).1
  -- the rows that were there are of other tasks
  have hold : ∀ r ∈ s.shared.runs.rows, base ≤ r.id →
      Function.update f s.shared.runs.nextId i r.id = f r.id ∧ f r.id ≠ i := by
    intro r hr hle
    have hlt := s.shared.runs.ids_lt r hr
    refine ⟨Function.update_of_ne (by omega) _ _, ?_⟩
    rintro rfl
    obtain ⟨u, hu, hupast, -⟩ := hs.task r hr hle
    cases hi.symm.trans hu
    exact hnot hupast
  have hnew : ∀ r, r ∈ (s.shared.runs.insert t.execution.jobId deviceId triggeredBy now).rows →
      r ∈ s.shared.runs.rows ∨
        r = newRun s.shared.runs.nextId t.execution.jobId deviceId triggeredBy now := by
    intro r hr
    rcases List.mem_append.1 hr with hr | hr
    · exact .inl hr
    · exact .inr (List.mem_singleton.1 hr)
  refine ⟨?_, ?_, ?_⟩
  · have hle := hs.base_le
    show base ≤ s.shared.runs.nextId + 1
    omega
  · intro r hr hle
    rcases hnew r hr with hr | rfl
    · obtain ⟨hsame, hne⟩ := hold r hr hle
      obtain ⟨u, hu, hrest⟩ := hs.task r hr hle
      refine ⟨u, ?_, hrest⟩
      rw [hsame]
      show (s.parts.set i t')[f r.id]? = some u
      rw [List.getElem?_set_ne (Ne.symm hne), hu]
    · refine ⟨t', ?_, hpast, ?_, ?_⟩
      · show (s.parts.set i t')[Function.update f s.shared.runs.nextId i
          s.shared.runs.nextId]? = some t'
        rw [Function.update_self, hself]
      · rw [hexe]
        rfl
      · rw [hexe]
        exact htrig
  · intro r₁ hr₁ r₂ hr₂ hle₁ hle₂ heq
    rcases hnew r₁ hr₁ with hr₁ | rfl
    · obtain ⟨hsame₁, hne₁⟩ := hold r₁ hr₁ hle₁
      rw [hsame₁] at heq
      rcases hnew r₂ hr₂ with hr₂ | rfl
      · rw [(hold r₂ hr₂ hle₂).1] at heq
        exact hs.distinct r₁ hr₁ r₂ hr₂ hle₁ hle₂ heq
      · exact absurd (heq.trans (Function.update_self ..)) hne₁
    · rcases hnew r₂ hr₂ with hr₂ | rfl
      · obtain ⟨hsame₂, hne₂⟩ := hold r₂ hr₂ hle₂
        rw [hsame₂] at heq
        exact absurd (heq.symm.trans (Function.update_self ..)) hne₂
      · rfl

/-- The other tasks stay what they are. -/
theorem parts_set_pastInsert {tasks : List Task} {i : Nat} {t t' : Task}
    (hi : tasks[i]? = some t) (hexe : t'.execution = t.execution)
    (hpast : t.PastInsert → t'.PastInsert) (j : Nat) (u : Task) (hj : tasks[j]? = some u)
    (hu : u.PastInsert) : ∃ u' : Task, (tasks.set i t')[j]? = some u' ∧ u'.PastInsert ∧
      u'.execution = u.execution := by
  by_cases hij : i = j
  · subst hij
    cases hi.symm.trans hj
    exact ⟨t', List.getElem?_set_self (List.getElem?_eq_some_iff.1 hi).1, hpast hu, hexe⟩
  · exact ⟨u, by rw [List.getElem?_set_ne hij, hj], hu, rfl⟩

/-- **A step keeps the rows traced**, if what it inserts is for a manual execution. -/
theorem Traced.step {ex : JobExecutor} {jobs : List BackupJob} {base : Int} {s s' : Executor}
    {f : Int → Nat} {a : ExecutorAction} (hs : Traced base s f) (hjob : ∀ t ∈ s.parts, t.OfJob)
    (hg : ∀ i o now, a = .task i (.backup (.createRun o now)) → o.applied = true →
      ∀ t, s.parts[i]? = some t → t.execution.triggeredBy = "manual")
    (h : s.step ex jobs a = some s') : ∃ f', Traced base s' f' := by
  obtain ⟨execution, rest, -, -, rfl⟩ | ⟨i, ev, t, sh, t', rfl, hi, hstep, rfl⟩ :=
    Executor.step_cases h
  · refine ⟨f, hs.mono (.refl _) fun j u hj hu => ⟨u, ?_, hu, rfl⟩⟩
    show (s.parts ++ [_])[j]? = some u
    rw [List.getElem?_append_left (List.getElem?_eq_some_iff.1 hj).1, hj]
  have hexe := (Task.step_running hstep).1
  have hkeep : SameOrigins s.shared.runs sh.runs → (t.PastInsert → t'.PastInsert) →
      ∃ f', Traced base ⟨⟨sh, s.parts.set i t'⟩, s.jobQueue⟩ f' := fun hrows hpast =>
    ⟨f, hs.mono hrows (parts_set_pastInsert hi hexe hpast)⟩
  rcases Task.step_call hstep with ⟨hcall, hruns⟩ | ⟨hnone, hruns, -⟩ |
    ⟨call, bev, call', rfl, hcall, hcall', hcstep⟩
  · refine hkeep (hruns ▸ .refl _) ?_
    unfold Task.PastInsert
    rw [hcall]
    exact id
  · refine hkeep (hruns ▸ .refl _) ?_
    rintro ⟨call, hcall, -⟩
    rw [hnone] at hcall
    cases hcall
  · obtain ⟨hpc', hsame | ⟨o, now, rfl, ho, hpc, hruns⟩⟩ := BackupCall.step_origins hcstep
    · exact hkeep hsame fun _ => ⟨call', hcall', hpc'⟩
    · -- the INSERT: task `i` has no row yet
      have hnot : ¬ t.PastInsert := by
        rintro ⟨c, hc, hne⟩
        cases hcall.symm.trans hc
        exact hne hpc
      have htrig := hg i o now rfl ho t hi
      rw [(hjob t (List.mem_of_getElem? hi)).call call hcall] at hruns
      obtain ⟨running, runs⟩ := sh
      cases hruns
      exact ⟨_, hs.insert hi hnot ⟨call', hcall', hpc'⟩ hexe call.job.deviceId "manual" now
        htrig.symm running⟩

/-- **Run provenance.**  Over every sequence of checks and manual triggers, every interleaving of
    the tasks and all outcomes of the database: if each INSERT of a run that takes effect is for a
    manual execution, then the rows that were created go one to one to executions that were
    received, each with the job and the trigger of its own. -/
theorem run_provenance (cron : CronCrate) (ex : JobExecutor) (w : World) (runs : RunsTable)
    (as : List ClientAction) (c : Client)
    (h : exec (Client.step cron ex) (.init w runs) as = some c)
    (hg : Along (Client.step cron ex) RecordsTrigger (.init w runs) as) :
    ∃ f : Int → Nat,
      Set.InjOn (fun r => f r.id) {r | r ∈ c.executor.shared.runs.rows ∧ runs.nextId ≤ r.id} ∧
      ∀ r ∈ c.executor.shared.runs.rows, runs.nextId ≤ r.id →
        ∃ t, c.executor.parts[f r.id]? = some t ∧ r.jobId = t.execution.jobId ∧
          r.triggeredBy = t.execution.triggeredBy := by
  have hinv : (∀ t ∈ c.executor.parts, t.OfJob) ∧ ∃ f, Traced runs.nextId c.executor f := by
    refine exec_along (I := fun c => (∀ t ∈ c.executor.parts, t.OfJob) ∧
      ∃ f, Traced runs.nextId c.executor f) ?_ ⟨?_, _, Traced.init runs []⟩ hg h
    · rintro m a m' ⟨hjob, f, hf⟩ hguard hstep
      rcases Client.step_executor hstep with ⟨hsame, -, -⟩ | ⟨execution, -, -, heq⟩ |
        ⟨b, rfl, hb, -⟩
      · rw [hsame]
        exact ⟨hjob, f, hf⟩
      · rw [heq]
        exact ⟨hjob, f, hf.base_le, hf.task, hf.distinct⟩
      · refine ⟨Executor.ofJob_step hjob hb, hf.step hjob ?_ hb⟩
        rintro i o now rfl ho t hi
        exact hguard ho t hi
    · intro t ht
      cases ht
  obtain ⟨-, f, hf⟩ := hinv
  refine ⟨f, ?_, fun r hr hle => ?_⟩
  · rintro r ⟨hr, hle⟩ r' ⟨hr', hle'⟩ heq
    exact List.inj_on_of_nodup_map c.executor.shared.runs.ids_nodup hr hr'
      (hf.distinct r hr r' hr' hle hle' heq)
  · obtain ⟨t, ht, -, hrest⟩ := hf.task r hr hle
    exact ⟨t, ht, hrest⟩

/-- A manual trigger, and its record. -/
theorem run_provenance_manual :
    let w : World := .ofRows [.plain 1 "blade"] []
    let as := [.triggerManualBackup 1, .executor .recv] ++ ClientAction.register 0 ++
      [.executor (.task 0 .startBackup), .executor (.task 0 (.backup (.createRun .done 11)))]
    ∃ c, exec (Client.step .everyMinute (.withCap 1)) (.init w .empty) as = some c ∧
      c.executor.shared.runs.rows.map Run.triggeredBy = ["manual"] ∧
      ∃ f : Int → Nat,
        Set.InjOn (fun r => f r.id)
          {r | r ∈ c.executor.shared.runs.rows ∧ RunsTable.empty.nextId ≤ r.id} ∧
        ∀ r ∈ c.executor.shared.runs.rows, RunsTable.empty.nextId ≤ r.id →
          ∃ t, c.executor.parts[f r.id]? = some t ∧ r.jobId = t.execution.jobId ∧
            r.triggeredBy = t.execution.triggeredBy := by
  intro w as
  have hg : Along (Client.step .everyMinute (.withCap 1)) RecordsTrigger (.init w .empty) as := by
    show Along _ _ _ (as.take 6 ++ as.drop 6)
    refine along_append.2
      ⟨along_of_forall (by simp [as, ClientAction.register, RecordsTrigger]) _, ?_⟩
    rintro _ ⟨⟩
    refine ⟨?_, fun _ _ => trivial⟩
    rintro - t ht
    cases ht
    rfl
  exact ⟨_, rfl, by decide, run_provenance .everyMinute (.withCap 1) w .empty as _ rfl hg⟩

/-- The record of a scheduled backup says that it was triggered manually. -/
theorem scheduled_run_recorded_manual :
    let w : World := .ofRows [.plain 1 "blade"] [.every 3600 1 1 (some 0)]
    let as := [.check ⟨seconds 10, [1], fun _ => .succeeding (seconds 10)⟩, .effect, .effect,
      .effect, .executor .recv] ++ ClientAction.register 0 ++
      [.executor (.task 0 .startBackup), .executor (.task 0 (.backup (.createRun .done 11)))]
    ∃ c, exec (Client.step .everyMinute (.withCap 1)) (.init w .empty) as = some c ∧
      ¬ ∃ f : Int → Nat,
        Set.InjOn (fun r => f r.id)
          {r | r ∈ c.executor.shared.runs.rows ∧ RunsTable.empty.nextId ≤ r.id} ∧
        ∀ r ∈ c.executor.shared.runs.rows, RunsTable.empty.nextId ≤ r.id →
          ∃ t, c.executor.parts[f r.id]? = some t ∧ r.jobId = t.execution.jobId ∧
            r.triggeredBy = t.execution.triggeredBy := by
  intro w as
  refine ⟨_, rfl, ?_⟩
  rintro ⟨f, -, hf⟩
  obtain ⟨t, ht, -, htrig⟩ := hf _ List.mem_cons_self (Int.le_refl _)
  rw [List.mem_singleton.1 (List.mem_of_getElem? ht)] at htrig
  exact absurd htrig (by decide)

end RBackup2
