import RBackup2.Client
import RBackup2.Scheduler.Shared

/-!
# Whose backups are run

The filter on `enabled` and `device_id` stands in the SELECT of `get_schedules_for_device`, which a
load makes; `get_job_by_id`, which an execution makes any time later, has none.  Others may edit a
job in between.

* `Site` — the scheduler with its two tasks, the executor, and the edits of others to
  `backup_jobs`.
* `SharedScheduler.Knows` — what is true of the job of every schedule in the scheduler.
* `SharedScheduler.Traced` — every schedule in the scheduler is from the last load that has cleared
  the map.
* `Vetted` — every scheduled execution is for a job that was eligible when that load selected it.
* `scheduled_jobs_vetted` — so the row that an execution reads is eligible, if no edit since that
  load took this from it.
-/

set_option autoImplicit false

namespace RBackup2

open Transition

structure Site where
  scheduler : SharedScheduler
  executor : Executor

inductive SiteAction where
  | scheduler (a : SchedulerAction)
  | executor (a : ExecutorAction)
  | triggerManualBackup (jobId : Uuid)
  /-- Somebody else sets `enabled` and `device_id` of a job. -/
  | edit (jobId : Uuid) (enabled : Bool) (deviceId : String)

/-- What the edit makes of the table. -/
def editJob (jobId : Uuid) (enabled : Bool) (deviceId : String) (jobs : List BackupJob) :
    List BackupJob :=
  jobs.map fun j => if j.id = jobId then { j with enabled := enabled, deviceId := deviceId } else j

/-- The edit of a job in the database of a site. -/
def SharedScheduler.edit (s : SharedScheduler) (jobId : Uuid) (enabled : Bool)
    (deviceId : String) : SharedScheduler :=
  { s with world := { s.world with jobs := editJob jobId enabled deviceId s.world.jobs } }

/-- What a step of the scheduler hands to the channel. -/
def SharedScheduler.handsOver (s : SharedScheduler) : SchedulerAction → Option JobExecution
  | .effect => (s.pending.head?.bind Effect.sent).map Enqueue.execution
  | _ => none

/-- `deviceId` is the device of the scheduler. -/
def Site.step (cron : CronCrate) (ex : JobExecutor) (deviceId : String) (s : Site) :
    SiteAction → Option Site
  | .scheduler a =>
    match s.scheduler.step cron deviceId a with
    | none => none
    | some scheduler =>
      match s.scheduler.handsOver a with
      | none => some { s with scheduler := scheduler }
      | some execution =>
        match s.executor.send execution with
        | none => none
        | some executor => some ⟨scheduler, executor⟩
  | .executor a =>
    match s.executor.step ex s.scheduler.world.jobs a with
    | none => none
    | some executor => some { s with executor := executor }
  | .triggerManualBackup jobId =>
    match s.executor.send ⟨jobId, "manual"⟩ with
    | none => none
    | some executor => some { s with executor := executor }
  | .edit jobId enabled deviceId' =>
    some { s with scheduler := s.scheduler.edit jobId enabled deviceId' }

/-- A client that has not loaded its schedules yet. -/
def Site.init (jobs : List BackupJob) (rows : List Schedule) (runs : RunsTable) : Site :=
  ⟨.init ⟨jobs, rows, .empty⟩, .init runs []⟩

/-- **Everything a step can do.** -/
theorem Site.step_cases {cron : CronCrate} {ex : JobExecutor} {deviceId : String} {s s' : Site}
    {a : SiteAction} (h : s.step cron ex deviceId a = some s') :
    (∃ b, a = .scheduler b ∧ s.scheduler.step cron deviceId b = some s'.scheduler ∧
      ((s.scheduler.handsOver b = none ∧ s'.executor = s.executor) ∨
        ∃ execution, s.scheduler.handsOver b = some execution ∧
          s'.executor = { s.executor with jobQueue := s.executor.jobQueue ++ [execution] })) ∨
    (∃ b executor, a = .executor b ∧
      s.executor.step ex s.scheduler.world.jobs b = some executor ∧
      s' = { s with executor := executor }) ∨
    (∃ jobId, a = .triggerManualBackup jobId ∧ s' = { s with
      executor := { s.executor with jobQueue := s.executor.jobQueue ++ [⟨jobId, "manual"⟩] } }) ∨
    (∃ jobId enabled d, a = .edit jobId enabled d ∧
      s' = { s with scheduler := s.scheduler.edit jobId enabled d }) := by
  cases a with
  | scheduler b =>
    left
    simp only [Site.step] at h
    split at h
    · cases h
    · rename_i scheduler hstep
      split at h
      · rename_i hnone
        cases h
        exact ⟨b, rfl, hstep, .inl ⟨hnone, rfl⟩⟩
      · rename_i execution hsome
        split at h
        · cases h
        · rename_i executor hsend
          cases h
          exact ⟨b, rfl, hstep, .inr ⟨execution, hsome, Executor.send_eq hsend⟩⟩
  | executor b =>
    right; left
    simp only [Site.step] at h
    split at h
    · cases h
    · rename_i executor hstep
      cases h
      exact ⟨b, executor, rfl, hstep, rfl⟩
  | triggerManualBackup jobId =>
    right; right; left
    simp only [Site.step] at h
    split at h
    · cases h
    · rename_i executor hsend
      cases h
      rw [Executor.send_eq hsend]
      exact ⟨jobId, rfl, rfl⟩
  | edit jobId enabled d =>
    right; right; right
    cases h
    exact ⟨jobId, enabled, d, rfl, rfl⟩

/-! ## Eligible jobs -/

/-- The row of a job is enabled and of the device. -/
def Eligible (jobs : List BackupJob) (deviceId : String) (jobId : Uuid) : Prop :=
  ∃ job, getJobById jobs jobId = some job ∧ job.enabled = true ∧ job.deviceId = deviceId

/-- What the SELECT of a load returns is of eligible jobs. -/
theorem getSchedulesForDevice_eligible {jobs : List BackupJob} (hids : (jobs.map (·.id)).Nodup)
    {rows : List Schedule} {deviceId : String} :
    ∀ r ∈ getSchedulesForDevice jobs rows deviceId, Eligible jobs deviceId r.jobId := by
  intro r hr
  obtain ⟨-, hfilter⟩ := List.mem_filter.1 hr
  rw [Bool.and_eq_true, List.any_eq_true] at hfilter
  obtain ⟨-, job, hjob, hmatch⟩ := hfilter
  obtain ⟨⟨hid, hdev⟩, hen⟩ : (job.id = r.jobId ∧ job.deviceId = deviceId) ∧
      job.enabled = true := by simpa using hmatch
  refine ⟨job, ?_, hen, hdev⟩
  rw [← hid]
  exact getJobById_of_mem hids hjob

theorem editJob_ids (jobId : Uuid) (enabled : Bool) (deviceId : String) (jobs : List BackupJob) :
    (editJob jobId enabled deviceId jobs).map (·.id) = jobs.map (·.id) := by
  unfold editJob
  rw [List.map_map]
  refine List.map_congr_left fun j _ => ?_
  simp only [Function.comp_apply]
  split <;> rfl

/-- An edit that leaves the job eligible. -/
theorem Eligible.edit {jobs : List BackupJob} {deviceId : String} {jobId : Uuid}
    (h : Eligible jobs deviceId jobId) {k : Uuid} {enabled : Bool} {d : String}
    (hedit : k = jobId → enabled = true ∧ d = deviceId) :
    Eligible (editJob k enabled d jobs) deviceId jobId := by
  obtain ⟨job, hjob, hen, hdev⟩ := h
  have hfind : getJobById (editJob k enabled d jobs) jobId =
      (getJobById jobs jobId).map fun j =>
        if j.id = k then { j with enabled := enabled, deviceId := d } else j := by
    unfold getJobById editJob
    rw [List.find?_map]
    congr 2
    funext j
    simp only [Function.comp_apply]
    split <;> rfl
  have hid := getJobById_id hjob
  rw [hjob, Option.map_some] at hfind
  refine ⟨_, hfind, ?_⟩
  by_cases hk : job.id = k
  · rw [if_pos hk]
    exact hedit (hk.symm.trans hid)
  · rw [if_neg hk]
    exact ⟨hen, hdev⟩

/-! ## What the scheduler knows -/

/-- The effect sends and inserts for jobs with `V`. -/
def Effect.Knows (V : Uuid → Prop) : Effect → Prop
  | .send e => V e.execution.jobId
  | .insert s => V s.jobId
  | _ => True

/-- **Every schedule in the scheduler**, wherever it stands, is of a job with `V`. -/
structure SharedScheduler.Knows (V : Uuid → Prop) (s : SharedScheduler) : Prop where
  selected : ∀ rows, s.reloading = .selected rows → ∀ r ∈ rows, V r.jobId
  locked : ∀ es, s.reloading = .locked es → ∀ e ∈ es, e.Knows V
  memory : ∀ id u, s.world.schedules.get id = some u → V u.jobId
  pending : ∀ e ∈ s.pending, e.Knows V

section Knows

variable {V V' : Uuid → Prop}

theorem Effect.Knows.mono (hV : ∀ j, V j → V' j) {e : Effect} (he : e.Knows V) : e.Knows V' := by
  cases e with
  | send e => exact hV _ he
  | insert s => exact hV _ he
  | updateRows | advance | clear => trivial

theorem knows_reloadLoop {cron : CronCrate} {env : ReloadEnv} {rows : List Schedule}
    (h : ∀ r ∈ rows, V r.jobId) : ∀ e ∈ (reloadLoop cron env rows).1, e.Knows V := by
  intro e he
  obtain ⟨row, -, hrow, he⟩ := mem_reloadLoop he
  rcases mem_loadEffects he with rfl | ⟨-, rfl⟩
  · show V (row.loaded cron env).jobId
    rw [(row.loaded_sameDefinition cron env).jobId]
    exact h row hrow
  · trivial

/-- A schedule of the job fires in the check. -/
def World.Fires (w : World) (t : Tick) (jobId : Uuid) : Prop :=
  ∃ id u, w.schedules.get id = some u ∧ u.fires t.now = true ∧ u.jobId = jobId

/-- What a check sends is of jobs with a schedule that fires. -/
theorem knows_fires {cron : CronCrate} {w : World} {t : Tick}
    (hp : t.order.Perm w.schedules.ids) : ∀ e ∈ checkSchedules cron w t, e.Knows (w.Fires t) := by
  intro e he
  obtain ⟨u, hu, hfires, he⟩ := mem_checkLoop.1 he
  rcases queueJob_effects he with rfl | ⟨next, -, rfl | rfl⟩
  · exact ⟨u.id, u, (World.mem_snapshot hp).1 hu, hfires, rfl⟩
  · trivial
  · trivial

theorem knows_checkSchedules {cron : CronCrate} {w : World} {t : Tick}
    (hp : t.order.Perm w.schedules.ids) (h : ∀ id u, w.schedules.get id = some u → V u.jobId) :
    ∀ e ∈ checkSchedules cron w t, e.Knows V := fun e he =>
  (knows_fires hp e he).mono fun _ ⟨id, u, hu, _, hjob⟩ => hjob ▸ h id u hu

/-- A check inserts nothing. -/
theorem insert_not_mem_checkSchedules {cron : CronCrate} {w : World} {t : Tick} (s : Schedule) :
    Effect.insert s ∉ checkSchedules cron w t := by
  intro he
  obtain ⟨u, -, -, he⟩ := mem_checkLoop.1 he
  rcases queueJob_effects he with h | ⟨next, -, h | h⟩ <;> cases h

/-- An effect leaves the map with jobs that have `V`. -/
theorem knows_apply {w : World} {e : Effect} (he : e.Knows V)
    (h : ∀ id u, w.schedules.get id = some u → V u.jobId) :
    ∀ id u, (w.apply e).schedules.get id = some u → V u.jobId := by
  intro id u hu
  cases e with
  | send | updateRows => exact h id u hu
  | clear => cases hu
  | insert s =>
    rcases ScheduleMap.get_insert_cases hu with rfl | hu
    · exact he
    · exact h id u hu
  | advance k last next =>
    have hu : (w.schedules.advance k last next).get id = some u := hu
    rw [ScheduleMap.get_advance] at hu
    split at hu
    · obtain ⟨v, hv, rfl⟩ := Option.map_eq_some_iff.1 hu
      exact h k v hv
    · exact h id u hu

theorem SharedScheduler.Knows.step {cron : CronCrate} {deviceId : String} {s s' : SharedScheduler}
    {a : SchedulerAction} (hs : s.Knows V)
    (hsel : a = .select → ∀ r ∈ getSchedulesForDevice s.world.jobs s.world.rows deviceId, V r.jobId)
    (h : s.step cron deviceId a = some s') : s'.Knows V := by
  obtain ⟨rfl, -, rfl⟩ | ⟨env, rows, -, hr, rfl⟩ | ⟨e, rest, -, hr, rfl⟩ | ⟨-, -, rfl⟩ |
    ⟨t, -, -, -, hp, rfl⟩ | ⟨e, rest, -, hp, -, rfl⟩ := SharedScheduler.step_cases h
  · refine ⟨?_, fun es h => (by cases h), hs.memory, hs.pending⟩
    intro rows hrows
    cases hrows
    exact hsel rfl
  · refine ⟨fun rows h => (by cases h), ?_, hs.memory, hs.pending⟩
    intro es hes e he
    cases hes
    rcases List.mem_cons.1 he with rfl | he
    · trivial
    · exact knows_reloadLoop (hs.selected rows hr) e he
  · obtain ⟨he, hrest⟩ := List.forall_mem_cons.1 (hs.locked _ hr)
    refine ⟨fun rows h => (by cases h), ?_, knows_apply he hs.memory, hs.pending⟩
    intro es hes
    cases hes
    exact hrest
  · exact ⟨fun rows h => (by cases h), fun es h => (by cases h), hs.memory, hs.pending⟩
  · exact ⟨hs.selected, hs.locked, hs.memory, knows_checkSchedules hp hs.memory⟩
  · have hpending := hs.pending
    rw [hp] at hpending
    obtain ⟨he, hrest⟩ := List.forall_mem_cons.1 hpending
    exact ⟨hs.selected, hs.locked, knows_apply he hs.memory, hrest⟩

end Knows

/-! ## The load a schedule is from -/

/-- What is known of the jobs of the schedules, by where they stand: in the rows of a load that has
    not locked the map (`F 0`), behind its `clear` (`F 1`), or in a check (`S`).  Until the `clear`
    the map has the schedules of an earlier load, of which nothing is known any more. -/
structure SharedScheduler.Traced (F : Nat → Uuid → Prop) (S : Uuid → Prop) (s : SharedScheduler) :
    Prop where
  selected : ∀ rows, s.reloading = .selected rows → ∀ r ∈ rows, F 0 r.jobId
  locked : ∀ es, s.reloading = .locked es → ∀ e ∈ es, e.Knows (F 1)
  memory : (∀ es, s.reloading ≠ .locked (.clear :: es)) →
    ∀ id u, s.world.schedules.get id = some u → F 1 u.jobId
  pending : ∀ e ∈ s.pending, e.Knows S ∧ ∀ u, e ≠ .insert u

section Traced

variable {F F' : Nat → Uuid → Prop} {S S' : Uuid → Prop}

theorem SharedScheduler.Traced.mono (hF : ∀ n j, F n j → F' n j) (hS : ∀ j, S j → S' j)
    {s : SharedScheduler} (hs : s.Traced F S) : s.Traced F' S' where
  selected rows h r hr := hF 0 _ (hs.selected rows h r hr)
  locked es h e he := (hs.locked es h e he).mono (hF 1)
  memory h id u hu := hF 1 _ (hs.memory h id u hu)
  pending e he := ⟨(hs.pending e he).1.mono hS, (hs.pending e he).2⟩

/-- A step of the scheduler other than `lock`. -/
theorem SharedScheduler.Traced.step {cron : CronCrate} {deviceId : String}
    {s s' : SharedScheduler} {a : SchedulerAction} (hs : s.Traced F S)
    (hF : ∀ n j, F n j → F' n j) (hS : ∀ j, S j → S' j)
    (hsel : a = .select → ∀ r ∈ getSchedulesForDevice s.world.jobs s.world.rows deviceId,
      F' 0 r.jobId)
    (hlock : ∀ env, a ≠ .lock env)
    (hcheck : ∀ t, a = .check t → ∀ j, F 1 j → s.world.Fires t j → S' j)
    (h : s.step cron deviceId a = some s') : s'.Traced F' S' := by
  have hs' := hs.mono hF hS
  obtain ⟨rfl, hr, rfl⟩ | ⟨env, rows, rfl, -, rfl⟩ | ⟨e, rest, -, hr, rfl⟩ | ⟨-, hr, rfl⟩ |
    ⟨t, rfl, -, hfree, hp, rfl⟩ | ⟨e, rest, -, hp, -, rfl⟩ := SharedScheduler.step_cases h
  · refine ⟨?_, fun es h => (by cases h), fun _ => hs'.memory fun es h => ?_, hs'.pending⟩
    · intro rows hrows
      cases hrows
      exact hsel rfl
    · rw [hr] at h
      cases h
  · exact absurd rfl (hlock env)
  · obtain ⟨he, hrest⟩ := List.forall_mem_cons.1 (hs'.locked _ hr)
    refine ⟨fun rows h => (by cases h), ?_, fun _ => ?_, hs'.pending⟩
    · intro es hes
      cases hes
      exact hrest
    · by_cases hclear : e = .clear
      · rw [hclear]
        intro id u hu
        cases hu
      · refine knows_apply he (hs'.memory fun es h => ?_)
        rw [hr] at h
        cases h
        exact hclear rfl
  · refine ⟨fun rows h => (by cases h), fun es h => (by cases h),
      fun _ => hs'.memory fun es h => ?_, hs'.pending⟩
    rw [hr] at h
    cases h
  · -- the map is that of the last load, which has released it
    have hmemory := hs.memory fun es h => by
      rw [h] at hfree
      cases hfree
    refine ⟨hs'.selected, hs'.locked, hs'.memory, fun e he =>
      ⟨(knows_fires hp e he).mono fun j hj => ?_, fun u heq => ?_⟩⟩
    · obtain ⟨id, u, hu, hfires, rfl⟩ := hj
      exact hcheck t rfl _ (hmemory id u hu) ⟨id, u, hu, hfires, rfl⟩
    · exact insert_not_mem_checkSchedules u (heq ▸ he)
  · have hpending := hs'.pending
    rw [hp] at hpending
    obtain ⟨he, hrest⟩ := List.forall_mem_cons.1 hpending
    refine ⟨hs'.selected, hs'.locked, fun hclear => ?_, hrest⟩
    cases e with
    | send e => exact hs'.memory hclear
    | insert u => exact absurd rfl (he.2 u)
    | updateRows | advance | clear => exact knows_apply trivial (hs'.memory hclear)

/-- The `lock` of a load: what is known of its rows is known behind the `clear`. -/
theorem SharedScheduler.Traced.lock {cron : CronCrate} {deviceId : String}
    {s s' : SharedScheduler} {env : ReloadEnv} (hs : s.Traced F S) (hF : ∀ j, F 0 j → F' 1 j)
    (hS : ∀ j, S j → S' j) (h : s.step cron deviceId (.lock env) = some s') : s'.Traced F' S' := by
  obtain ⟨heq, -⟩ | ⟨env, rows, -, hr, rfl⟩ | ⟨_, _, heq, -⟩ | ⟨heq, -⟩ | ⟨t, heq, -⟩ |
    ⟨_, _, heq, -⟩ := SharedScheduler.step_cases h
  case inr.inl =>
    refine ⟨fun rows h => (by cases h), ?_, fun hclear => absurd rfl (hclear _),
      fun e he => ⟨(hs.pending e he).1.mono hS, (hs.pending e he).2⟩⟩
    intro es hes e he
    cases hes
    rcases List.mem_cons.1 he with rfl | he
    · trivial
    · exact knows_reloadLoop (fun r hr' => hF _ (hs.selected rows hr r hr')) e he
  all_goals cases heq

theorem SharedScheduler.Traced.handsOver {s : SharedScheduler} (hs : s.Traced F S)
    {a : SchedulerAction} {execution : JobExecution} (h : s.handsOver a = some execution) :
    S execution.jobId := by
  cases a with
  | effect =>
    simp only [SharedScheduler.handsOver] at h
    obtain ⟨q, hq, rfl⟩ := Option.map_eq_some_iff.1 h
    obtain ⟨e, he, hsent⟩ := Option.bind_eq_some_iff.1 hq
    have hknown := (hs.pending e (List.mem_of_mem_head? he)).1
    cases e with
    | send e =>
      cases hsent
      exact hknown
    | updateRows | advance | clear | insert => cases hsent
  | select | lock | reloadEffect | unlock | check => cases h

end Traced

/-! ## The history of an execution -/

/-- A load takes the lock on the map. -/
def SiteAction.isLock : SiteAction → Bool
  | .scheduler (.lock _) => true
  | _ => false

section History

variable (cron : CronCrate) (ex : JobExecutor) (deviceId : String) (s₀ : Site)

/-- The SELECT of a load has found the job eligible, and the map was locked `n` times since. -/
def SelectedEligible (as : List SiteAction) (n : Nat) (jobId : Uuid) : Prop :=
  ∃ pre load m, as = pre ++ .scheduler .select :: load ∧ load.countP SiteAction.isLock = n ∧
    exec (Site.step cron ex deviceId) s₀ pre = some m ∧
    Eligible m.scheduler.world.jobs deviceId jobId

/-- A check has found a schedule of the job due, and the last load to fill the map before it had
    found the job eligible. -/
def SentEligible (as : List SiteAction) (jobId : Uuid) : Prop :=
  ∃ pre load t post m k, as = pre ++ .scheduler .select :: (load ++ .scheduler (.check t) :: post) ∧
    load.countP SiteAction.isLock = 1 ∧
    exec (Site.step cron ex deviceId) s₀ pre = some m ∧
    Eligible m.scheduler.world.jobs deviceId jobId ∧
    exec (Site.step cron ex deviceId) m (.scheduler .select :: load) = some k ∧
    k.scheduler.world.Fires t jobId

/-- Later on, a task has read the row of the job. -/
def ReadSince (as : List SiteAction) (i : Nat) (job : BackupJob) : Prop :=
  ∃ pre load t wait post m k m', as = pre ++ .scheduler .select :: (load ++
      .scheduler (.check t) :: (wait ++ .executor (.task i (.getJobById none)) :: post)) ∧
    load.countP SiteAction.isLock = 1 ∧
    exec (Site.step cron ex deviceId) s₀ pre = some m ∧
    Eligible m.scheduler.world.jobs deviceId job.id ∧
    exec (Site.step cron ex deviceId) m (.scheduler .select :: load) = some k ∧
    k.scheduler.world.Fires t job.id ∧
    exec (Site.step cron ex deviceId) k (.scheduler (.check t) :: wait) = some m' ∧
    getJobById m'.scheduler.world.jobs job.id = some job

/-- **Every scheduled execution was vetted**: the load its schedule is from has found its job
    eligible, and the row that it works on has been read since. -/
structure Vetted (as : List SiteAction) (s : Site) : Prop where
  ids : (s.scheduler.world.jobs.map (·.id)).Nodup
  scheduler : s.scheduler.Traced (SelectedEligible cron ex deviceId s₀ as)
    (SentEligible cron ex deviceId s₀ as)
  executions : ∀ x ∈ s.executor.executions, x.triggeredBy = "schedule" →
    SentEligible cron ex deviceId s₀ as x.jobId
  read : ∀ i t job, s.executor.parts[i]? = some t → t.execution.triggeredBy = "schedule" →
    t.job = some job → ReadSince cron ex deviceId s₀ as i job

variable {cron ex deviceId s₀}

theorem SelectedEligible.concat {as : List SiteAction} {n : Nat} {jobId : Uuid}
    (h : SelectedEligible cron ex deviceId s₀ as n jobId) {a : SiteAction}
    (ha : a.isLock = false) : SelectedEligible cron ex deviceId s₀ (as ++ [a]) n jobId := by
  obtain ⟨pre, load, m, rfl, hn, hm, helig⟩ := h
  exact ⟨pre, load ++ [a], m, by simp, by simp [hn, ha], hm, helig⟩

theorem SelectedEligible.lock {as : List SiteAction} {n : Nat} {jobId : Uuid}
    (h : SelectedEligible cron ex deviceId s₀ as n jobId) {a : SiteAction} (ha : a.isLock = true) :
    SelectedEligible cron ex deviceId s₀ (as ++ [a]) (n + 1) jobId := by
  obtain ⟨pre, load, m, rfl, hn, hm, helig⟩ := h
  exact ⟨pre, load ++ [a], m, by simp, by simp [hn, ha], hm, helig⟩

theorem SelectedEligible.check {as : List SiteAction} {s : Site} {jobId : Uuid}
    (hrun : exec (Site.step cron ex deviceId) s₀ as = some s)
    (h : SelectedEligible cron ex deviceId s₀ as 1 jobId) {t : Tick}
    (hfires : s.scheduler.world.Fires t jobId) :
    SentEligible cron ex deviceId s₀ (as ++ [.scheduler (.check t)]) jobId := by
  obtain ⟨pre, load, m, rfl, hn, hm, helig⟩ := h
  obtain ⟨m', hm', hload⟩ := exec_append.1 hrun
  cases hm.symm.trans hm'
  exact ⟨pre, load, t, [], m, s, by simp, hn, hm, helig, hload, hfires⟩

theorem SentEligible.concat {as : List SiteAction} {jobId : Uuid}
    (h : SentEligible cron ex deviceId s₀ as jobId) (a : SiteAction) :
    SentEligible cron ex deviceId s₀ (as ++ [a]) jobId := by
  obtain ⟨pre, load, t, post, m, k, rfl, hrest⟩ := h
  exact ⟨pre, load, t, post ++ [a], m, k, by simp, hrest⟩

theorem ReadSince.concat {as : List SiteAction} {i : Nat} {job : BackupJob}
    (h : ReadSince cron ex deviceId s₀ as i job) (a : SiteAction) :
    ReadSince cron ex deviceId s₀ (as ++ [a]) i job := by
  obtain ⟨pre, load, t, wait, post, m, k, m', rfl, hrest⟩ := h
  exact ⟨pre, load, t, wait, post ++ [a], m, k, m', by simp, hrest⟩

/-- The read of a job that a check has sent. -/
theorem SentEligible.read {as : List SiteAction} {s : Site} {jobId : Uuid}
    (hrun : exec (Site.step cron ex deviceId) s₀ as = some s)
    (h : SentEligible cron ex deviceId s₀ as jobId) (i : Nat) {job : BackupJob}
    (hread : getJobById s.scheduler.world.jobs jobId = some job) :
    ReadSince cron ex deviceId s₀ (as ++ [.executor (.task i (.getJobById none))]) i job := by
  obtain ⟨pre, load, t, wait, m, k, rfl, hn, hm, helig, hk, hfires⟩ := h
  obtain ⟨m₁, hm₁, hrest⟩ := exec_append.1 hrun
  cases hm.symm.trans hm₁
  rw [← List.cons_append] at hrest
  obtain ⟨k₁, hk₁, hwait⟩ := exec_append.1 hrest
  cases hk.symm.trans hk₁
  have hid := getJobById_id hread
  rw [← hid] at helig hread hfires
  exact ⟨pre, load, t, wait, [], m, k, s, by simp, hn, hm, helig, hk, hfires, hwait, hread⟩

/-- A step of the executor. -/
theorem Vetted.executorStep {as : List SiteAction} {s : Site} {b : ExecutorAction}
    {executor : Executor} (hrun : exec (Site.step cron ex deviceId) s₀ as = some s)
    (hs : Vetted cron ex deviceId s₀ as s)
    (h : s.executor.step ex s.scheduler.world.jobs b = some executor) :
    ∀ i t job, executor.parts[i]? = some t → t.execution.triggeredBy = "schedule" →
      t.job = some job → ReadSince cron ex deviceId s₀ (as ++ [.executor b]) i job := by
  intro k u job hk htrig hjob
  obtain ⟨execution, rest, -, -, rfl⟩ | ⟨i, ev, t, sh, t', rfl, hi, hstep, rfl⟩ :=
    Executor.step_cases h
  · -- a task that has just been spawned has read nothing
    rcases Nat.lt_or_ge k s.executor.parts.length with hlt | hge
    · rw [List.getElem?_append_left hlt] at hk
      exact (hs.read k u job hk htrig hjob).concat _
    · rw [List.getElem?_append_right hge, List.getElem?_singleton] at hk
      split at hk
      · cases hk
        cases hjob
      · cases hk
  · rcases getElem?_set_cases hk with ⟨rfl, rfl⟩ | ⟨-, hk⟩
    · obtain ⟨hexe, hsame | ⟨job', rfl, hread, hnew⟩⟩ := Task.step_job hstep
      · rw [hsame] at hjob
        rw [hexe] at htrig
        exact (hs.read k t job hi htrig hjob).concat _
      · cases hjob.symm.trans hnew
        rw [hexe] at htrig
        have hmem : t.execution ∈ s.executor.executions :=
          List.mem_append_left _ (List.mem_map_of_mem (List.mem_of_getElem? hi))
        exact (hs.executions _ hmem htrig).read hrun k hread
    · exact (hs.read k u job hk htrig hjob).concat _

/-- A step of the scheduler. -/
theorem Vetted.schedulerStep {as : List SiteAction} {s : Site} {b : SchedulerAction}
    {scheduler : SharedScheduler} (hrun : exec (Site.step cron ex deviceId) s₀ as = some s)
    (hs : Vetted cron ex deviceId s₀ as s) (h : s.scheduler.step cron deviceId b = some scheduler) :
    scheduler.Traced (SelectedEligible cron ex deviceId s₀ (as ++ [.scheduler b]))
      (SentEligible cron ex deviceId s₀ (as ++ [.scheduler b])) := by
  have hsent : ∀ j, SentEligible cron ex deviceId s₀ as j →
      SentEligible cron ex deviceId s₀ (as ++ [.scheduler b]) j := fun j hj => hj.concat _
  cases hb : SiteAction.isLock (.scheduler b) with
  | true =>
    obtain ⟨env, rfl⟩ : ∃ env, b = .lock env := by
      cases b with
      | lock env => exact ⟨env, rfl⟩
      | select | reloadEffect | unlock | check | effect => cases hb
    exact hs.scheduler.lock (fun j hj => hj.lock hb) hsent h
  | false =>
    refine hs.scheduler.step (fun n j hj => hj.concat hb) hsent ?_ ?_ ?_ h
    · rintro rfl r hr
      exact ⟨as, [], s, rfl, rfl, hrun, getSchedulesForDevice_eligible hs.ids r hr⟩
    · rintro env rfl
      cases hb
    · rintro t rfl j hj hfires
      exact hj.check hrun hfires

theorem Vetted.step {as : List SiteAction} {s s' : Site} {a : SiteAction}
    (hrun : exec (Site.step cron ex deviceId) s₀ as = some s)
    (hs : Vetted cron ex deviceId s₀ as s) (h : s.step cron ex deviceId a = some s') :
    Vetted cron ex deviceId s₀ (as ++ [a]) s' := by
  have hold : ∀ x ∈ s.executor.executions, x.triggeredBy = "schedule" →
      SentEligible cron ex deviceId s₀ (as ++ [a]) x.jobId :=
    fun x hx htrig => (hs.executions x hx htrig).concat a
  have hread : ∀ i t job, s.executor.parts[i]? = some t → t.execution.triggeredBy = "schedule" →
      t.job = some job → ReadSince cron ex deviceId s₀ (as ++ [a]) i job :=
    fun i t job hi htrig hjob => (hs.read i t job hi htrig hjob).concat a
  have hlater : a.isLock = false → s.scheduler.Traced
      (SelectedEligible cron ex deviceId s₀ (as ++ [a]))
      (SentEligible cron ex deviceId s₀ (as ++ [a])) := fun ha =>
    hs.scheduler.mono (fun _ _ hj => hj.concat ha) fun _ hj => hj.concat a
  obtain ⟨b, rfl, hstep, hsend⟩ | ⟨b, executor, rfl, hstep, rfl⟩ | ⟨jobId, rfl, rfl⟩ |
    ⟨jobId, enabled, d, rfl, rfl⟩ := Site.step_cases h
  · refine ⟨by rw [SharedScheduler.step_jobs hstep]; exact hs.ids, hs.schedulerStep hrun hstep,
      ?_, ?_⟩
    · rcases hsend with ⟨-, heq⟩ | ⟨execution, hover, heq⟩
      · rw [heq]
        exact hold
      · rw [heq]
        intro x hx htrig
        rw [Executor.executions_send] at hx
        rcases List.mem_append.1 hx with hx | hx
        · exact hold x hx htrig
        · rw [List.mem_singleton.1 hx]
          exact (hs.scheduler.handsOver hover).concat _
    · rcases hsend with ⟨-, heq⟩ | ⟨execution, -, heq⟩
      · rw [heq]
        exact hread
      · rw [heq]
        exact hread
  · refine ⟨hs.ids, hlater rfl, ?_, hs.executorStep hrun hstep⟩
    show ∀ x ∈ executor.executions, _
    rw [Executor.step_executions hstep]
    exact hold
  · refine ⟨hs.ids, hlater rfl, ?_, hread⟩
    intro x hx htrig
    rw [Executor.executions_send] at hx
    rcases List.mem_append.1 hx with hx | hx
    · exact hold x hx htrig
    · have hmanual : x.triggeredBy = "manual" := by rw [List.mem_singleton.1 hx]
      rw [hmanual] at htrig
      exact absurd htrig (by decide)
  · have htraced := hlater rfl
    refine ⟨?_, ⟨htraced.selected, htraced.locked, htraced.memory, htraced.pending⟩, hold, hread⟩
    show ((editJob jobId enabled d s.scheduler.world.jobs).map (·.id)).Nodup
    rw [editJob_ids]
    exact hs.ids

theorem Vetted.init {jobs : List BackupJob} (hids : (jobs.map (·.id)).Nodup)
    (rows : List Schedule) (runs : RunsTable) :
    Vetted cron ex deviceId (.init jobs rows runs) [] (.init jobs rows runs) where
  ids := hids
  scheduler := by
    refine ⟨fun rows h => (by cases h), fun es h => (by cases h), fun _ => ?_,
      fun e h => (by cases h)⟩
    intro id u h
    cases h
  executions x hx := (by cases hx)
  read i t job h := (by cases h)

/-- A job stays eligible as long as no edit takes it from it. -/
theorem eligible_of_exec {jobId : Uuid} :
    ∀ {as : List SiteAction} {s s' : Site}, Eligible s.scheduler.world.jobs deviceId jobId →
      (∀ enabled d, .edit jobId enabled d ∈ as → enabled = true ∧ d = deviceId) →
      exec (Site.step cron ex deviceId) s as = some s' →
      Eligible s'.scheduler.world.jobs deviceId jobId
  | [], _, _, h, _, he => by cases he; exact h
  | a :: as, s, s', h, hedit, he => by
    obtain ⟨m, hm, hrest⟩ := exec_cons.1 he
    refine eligible_of_exec ?_ (fun enabled d hmem => hedit enabled d (List.mem_cons_of_mem a hmem))
      hrest
    obtain ⟨b, rfl, hstep, -⟩ | ⟨b, executor, rfl, -, rfl⟩ | ⟨jobId, rfl, rfl⟩ |
      ⟨k, enabled, d, rfl, rfl⟩ := Site.step_cases hm
    · rw [SharedScheduler.step_jobs hstep]
      exact h
    · exact h
    · exact h
    · refine h.edit ?_
      rintro rfl
      exact hedit enabled d List.mem_cons_self

end History

/-- **Scheduled jobs are vetted when they are loaded.**  In every run of a client, with the edits of
    others to `backup_jobs` anywhere in it: before the row a scheduled execution works on was read,
    a check had found a schedule of the job due; the SELECT of the load that had filled the map
    last before that check had found the job enabled and of the scheduler's device; and the row is
    so itself, if no edit between the two made the job ineligible. -/
theorem scheduled_jobs_vetted (cron : CronCrate) (ex : JobExecutor) (deviceId : String)
    (jobs : List BackupJob) (rows : List Schedule) (runs : RunsTable)
    (hids : (jobs.map (·.id)).Nodup) (as : List SiteAction) (s : Site)
    (h : exec (Site.step cron ex deviceId) (.init jobs rows runs) as = some s) (i : Nat)
    (t : Task) (job : BackupJob) (hi : s.executor.parts[i]? = some t)
    (htrig : t.execution.triggeredBy = "schedule") (hjob : t.job = some job) :
    ∃ pre load u wait post m k, as = pre ++ .scheduler .select :: (load ++
        .scheduler (.check u) :: (wait ++ .executor (.task i (.getJobById none)) :: post)) ∧
      load.countP SiteAction.isLock = 1 ∧
      exec (Site.step cron ex deviceId) (.init jobs rows runs) pre = some m ∧
      Eligible m.scheduler.world.jobs deviceId job.id ∧
      exec (Site.step cron ex deviceId) m (.scheduler .select :: load) = some k ∧
      k.scheduler.world.Fires u job.id ∧
      ((∀ enabled d, .edit job.id enabled d ∈ load ++ wait → enabled = true ∧ d = deviceId) →
        job.enabled = true ∧ job.deviceId = deviceId) := by
  have hs : Vetted cron ex deviceId (.init jobs rows runs) as s :=
    exec_history (P := Vetted cron ex deviceId (.init jobs rows runs))
      (.init hids rows runs) (fun _ _ _ _ hm hs hstep => hs.step hm hstep) h
  obtain ⟨pre, load, u, wait, post, m, k, m', hsplit, hlock, hm, helig, hk, hfires, hwait, hread⟩ :=
    hs.read i t job hi htrig hjob
  refine ⟨pre, load, u, wait, post, m, k, hsplit, hlock, hm, helig, hk, hfires, fun hedit => ?_⟩
  have hchecked : Eligible k.scheduler.world.jobs deviceId job.id := by
    refine eligible_of_exec helig (fun enabled d hmem => ?_) hk
    rcases List.mem_cons.1 hmem with hmem | hmem
    · cases hmem
    · exact hedit enabled d (List.mem_append_left _ hmem)
  have hnow : Eligible m'.scheduler.world.jobs deviceId job.id := by
    refine eligible_of_exec hchecked (fun enabled d hmem => ?_) hwait
    rcases List.mem_cons.1 hmem with hmem | hmem
    · cases hmem
    · exact hedit enabled d (List.mem_append_right _ hmem)
  obtain ⟨job', hjob', hen, hdev⟩ := hnow
  cases hread.symm.trans hjob'
  exact ⟨hen, hdev⟩

/-- An hourly schedule is loaded and enqueued by a check. -/
def SiteAction.loadAndSend : List SiteAction :=
  (SchedulerAction.load (.succeeding (seconds 1735689540)) 2).map .scheduler ++
    [.scheduler (.check ⟨seconds 1735689600, [1], fun _ => .succeeding (seconds 1735689601)⟩),
      .scheduler .effect]

/-- The job is edited while its execution is in the channel, and is still eligible. -/
theorem scheduled_jobs_vetted_hourly :
    let rows : List Schedule := [.every 3600 1 1 (some (seconds 1735689600))]
    let as := SiteAction.loadAndSend ++
      [.edit 1 true "blade", .executor .recv, .executor (.task 0 (.getJobById none))]
    ∃ s t job, exec (Site.step .everyMinute (.withCap 1) "blade")
        (.init [.plain 1 "blade"] rows .empty) as = some s ∧
      s.executor.parts[0]? = some t ∧ t.execution.triggeredBy = "schedule" ∧ t.job = some job ∧
      job.enabled = true ∧ job.deviceId = "blade" := by
  intro rows as
  refine ⟨_, _, _, rfl, rfl, rfl, rfl, ?_⟩
  obtain ⟨pre, load, u, wait, post, m, k, hsplit, -, -, -, -, -, helig⟩ :=
    scheduled_jobs_vetted .everyMinute (.withCap 1) "blade" [.plain 1 "blade"] rows .empty
      (by decide) as _ rfl 0 _ _ rfl rfl rfl
  refine helig fun enabled d hmem => ?_
  have hedit : SiteAction.edit 1 enabled d ∈ as := by
    rw [hsplit]
    refine List.mem_append_right _ (List.mem_cons_of_mem _ ?_)
    rcases List.mem_append.1 hmem with hmem | hmem
    · exact List.mem_append_left _ hmem
    · exact List.mem_append_right _ (List.mem_cons_of_mem _ (List.mem_append_left _ hmem))
  simpa [as, SiteAction.loadAndSend, SchedulerAction.load] using hedit

/-- The job is disabled after its schedule was loaded: it is backed up all the same. -/
theorem disabled_job_is_run :
    let rows : List Schedule := [.every 3600 1 1 (some (seconds 1735689600))]
    let as := SiteAction.loadAndSend ++
      [.edit 1 false "blade", .executor .recv, .executor (.task 0 (.getJobById none)),
        .executor (.task 0 .canExecute), .executor (.task 0 .markRunning),
        .executor (.task 0 .startBackup)]
    ∃ s t job call, exec (Site.step .everyMinute (.withCap 1) "blade")
        (.init [.plain 1 "blade"] rows .empty) as = some s ∧
      s.executor.parts[0]? = some t ∧ t.execution.triggeredBy = "schedule" ∧
      t.phase = .executing job call ∧ ¬ (job.enabled = true ∧ job.deviceId = "blade") := by
  intro rows as
  exact ⟨_, _, _, _, rfl, rfl, rfl, rfl, by decide⟩

end RBackup2
