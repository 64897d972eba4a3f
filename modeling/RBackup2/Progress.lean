import RBackup2.Client
import RBackup2.Lib.Progress
import RBackup2.Scheduler.Tick

/-!
# The client comes to rest

Nothing in the client waits for anything that may not come: a task takes at most eight steps, each
of them open to it whatever the environment answers, and a send that finds the channel full waits
for an executor that can receive.

* `Task.step_isSome_iff` — a task can take the step it awaits, with every answer, and no other.
* `Client.rank` — the steps the client has still to take at most; `Client.ranked` — every step of
  its own takes one off, a check adds at most 12 for each schedule and a manual trigger 9.
* `client_comes_to_rest` — every run is bounded by what was brought in; a client that cannot go on
  has finished all its executions and holds no registration; and it can always get there.
-/

set_option autoImplicit false

namespace RBackup2

open Transition

/-! ## What a task waits for -/

/-- The calls `execute_job` and `execute_backup` make, without what they come to. -/
inductive TaskCall where
  | getJobById
  | canExecute
  | markRunning
  | startBackup
  | createRun
  | runRestic
  | updateRun
  | markCompleted
  deriving DecidableEq, Repr

def TaskEvent.call : TaskEvent → TaskCall
  | .getJobById _ => .getJobById
  | .canExecute => .canExecute
  | .markRunning => .markRunning
  | .startBackup => .startBackup
  | .backup (.createRun _ _) => .createRun
  | .backup (.runRestic _ _ _) => .runRestic
  | .backup (.updateRun _ _) => .updateRun
  | .markCompleted => .markCompleted

/-- The call a task makes next. -/
def Task.awaits (t : Task) : Option TaskCall :=
  match t.phase with
  | .received => some .getJobById
  | .found _ => some .canExecute
  | .admitted _ => some .markRunning
  | .marked _ => some .startBackup
  | .executing _ call =>
    match call.pc with
    | .create => some .createRun
    | .restic _ => some .runRestic
    | .update _ _ _ => some .updateRun
    | .returned _ => some .markCompleted
  | .finished _ => none

/-- How many calls a task has still to make, at most. -/
def Task.rank (t : Task) : Nat :=
  match t.phase with
  | .received => 8
  | .found _ => 7
  | .admitted _ => 6
  | .marked _ => 5
  | .executing _ call =>
    match call.pc with
    | .create => 4
    | .restic _ => 3
    | .update _ _ _ => 2
    | .returned _ => 1
  | .finished _ => 0

/-- The task is over. -/
def Task.isFinished (t : Task) : Prop := ∃ e, t.phase = .finished e

theorem Task.awaits_eq_none_iff (t : Task) : t.awaits = none ↔ t.isFinished := by
  unfold awaits isFinished
  cases hp : t.phase with
  | executing job call => cases hpc : call.pc <;> simp [hpc]
  | _ => simp

/-- A call of `execute_backup` takes the step it stands before, whatever it comes to. -/
theorem BackupCall.step_isSome_iff (serde : SerdeJson) (t : RunsTable) (c : BackupCall)
    (ev : BackupEvent) : (c.step serde t ev).isSome ↔
      match ev, c.pc with
      | .createRun _ _, .create => True
      | .runRestic _ _ _, .restic _ => True
      | .updateRun _ _, .update _ _ _ => True
      | _, _ => False := by
  cases ev with
  | createRun o now =>
    cases hpc : c.pc with
    | create => cases o <;> simp [step, hpc, createRun, DbOutcome.result]
    | _ => simp [step, hpc]
  | runRestic os which spawn =>
    cases hpc : c.pc with
    | restic runId =>
      cases hcmd : ResticCommand.new os which c.config <;> simp [step, hpc, hcmd]
    | _ => simp [step, hpc]
  | updateRun o now =>
    cases hpc : c.pc with
    | update runId u ret => simp [step, hpc]
    | _ => simp [step, hpc]

/-- **The environment cannot keep a task from going on**: it can take the step it awaits, with
    every answer to it, and no other. -/
theorem Task.step_isSome_iff (ex : JobExecutor) (jobs : List BackupJob) (sh : Shared) (t : Task)
    (ev : TaskEvent) : (t.step ex jobs sh ev).isSome ↔ t.awaits = some ev.call := by
  cases ev with
  | getJobById err =>
    cases hp : t.phase with
    | received =>
      cases err with
      | some err => simp [step, awaits, TaskEvent.call, hp]
      | none =>
        cases hjob : RBackup2.getJobById jobs t.execution.jobId <;>
          simp [step, awaits, TaskEvent.call, hp, hjob]
    | executing job call => cases hpc : call.pc <;> simp [step, awaits, TaskEvent.call, hp, hpc]
    | _ => simp [step, awaits, TaskEvent.call, hp]
  | canExecute =>
    cases hp : t.phase with
    | found job =>
      cases hcan : ex.canExecute sh.runningJobs job.deviceId <;>
        simp [step, awaits, TaskEvent.call, hp, hcan]
    | executing job call => cases hpc : call.pc <;> simp [step, awaits, TaskEvent.call, hp, hpc]
    | _ => simp [step, awaits, TaskEvent.call, hp]
  | markRunning =>
    cases hp : t.phase with
    | executing job call => cases hpc : call.pc <;> simp [step, awaits, TaskEvent.call, hp, hpc]
    | _ => simp [step, awaits, TaskEvent.call, hp]
  | startBackup =>
    cases hp : t.phase with
    | executing job call => cases hpc : call.pc <;> simp [step, awaits, TaskEvent.call, hp, hpc]
    | _ => simp [step, awaits, TaskEvent.call, hp]
  | backup bev =>
    cases hp : t.phase with
    | executing job call =>
      have hcall := BackupCall.step_isSome_iff ex.serde sh.runs call bev
      cases hstep : call.step ex.serde sh.runs bev with
      | none =>
        rw [hstep] at hcall
        cases bev <;> cases hpc : call.pc <;>
          simp_all [step, awaits, TaskEvent.call]
      | some p =>
        rw [hstep] at hcall
        cases bev <;> cases hpc : call.pc <;>
          simp_all [step, awaits, TaskEvent.call]
    | _ => cases bev <;> simp [step, awaits, TaskEvent.call, hp]
  | markCompleted =>
    cases hp : t.phase with
    | executing job call => cases hpc : call.pc <;> simp [step, awaits, TaskEvent.call, hp, hpc]
    | _ => simp [step, awaits, TaskEvent.call, hp]

/-- Every step of a task takes at least one call off. -/
theorem Task.step_rank {ex : JobExecutor} {jobs : List BackupJob} {sh sh' : Shared} {t t' : Task}
    {ev : TaskEvent} (h : t.step ex jobs sh ev = some (sh', t')) : t'.rank + 1 ≤ t.rank := by
  obtain ⟨err, -, hp, -, ⟨e, rfl⟩ | ⟨-, rfl⟩ | ⟨job, -, rfl⟩⟩ |
    ⟨job, -, hp, -, ⟨-, rfl⟩ | ⟨-, rfl⟩⟩ | ⟨job, -, hp, -, rfl⟩ | ⟨job, -, hp, -, rfl⟩ |
    ⟨job, call, bev, runs, call', -, hp, hstep, -, rfl⟩ | ⟨job, call, ret, -, hp, hpc, -, rfl⟩ :=
    Task.step_cases h
  case inr.inr.inr.inr.inl =>
    obtain ⟨o, now, -, hpc, -, ⟨-, rfl⟩ | ⟨e, rfl⟩⟩ |
      ⟨os, which, spawn, runId, -, hpc, -, ⟨e, rfl⟩ | ⟨r, rfl⟩⟩ |
      ⟨o, now, runId, u, ret, ret', -, hpc, -, rfl⟩ := BackupCall.step_cases hstep
    all_goals
      simp only [rank, hp, hpc]
      omega
  case inr.inr.inr.inr.inr =>
    simp only [rank, hp, hpc]
    omega
  all_goals
    simp only [rank, hp, BackupCall.start]
    omega

/-! ## What the client has still to do -/

/-- The steps that follow from an effect: a send is received, and its task takes eight steps. -/
def Effect.rank : Effect → Nat
  | .send _ => 10
  | _ => 1

def Executor.rank (s : Executor) : Nat := (s.parts.map Task.rank).sum + 9 * s.jobQueue.length

/-- The steps of its own the client has still to take, at most. -/
def Client.rank (c : Client) : Nat := (c.pending.map Effect.rank).sum + c.executor.rank

/-- The action is a step of the client's own: no check begins, and nobody triggers a backup. -/
def ClientAction.isWork : ClientAction → Bool
  | .effect => true
  | .executor _ => true
  | _ => false

/-- What an action adds to the rank, where `n` schedules are loaded. -/
def ClientAction.load (n : Nat) : ClientAction → Nat
  | .check _ => 12 * n
  | .triggerManualBackup _ => 9
  | _ => 0

/-- The client has nothing left to do. -/
structure Client.AtRest (c : Client) : Prop where
  pending : c.pending = []
  jobQueue : c.executor.jobQueue = []
  tasks : ∀ t ∈ c.executor.parts, t.isFinished

theorem Executor.step_rank {ex : JobExecutor} {jobs : List BackupJob} {s s' : Executor}
    {a : ExecutorAction} (h : s.step ex jobs a = some s') : s'.rank + 1 ≤ s.rank := by
  obtain ⟨execution, rest, -, hq, rfl⟩ | ⟨i, ev, t, sh, t', -, hi, hstep, rfl⟩ :=
    Executor.step_cases h
  · simp only [rank, hq, List.map_append, List.map_cons, List.map_nil, List.sum_append,
      List.sum_cons, List.sum_nil, List.length_cons, Task.rank]
    omega
  · have hone := Task.step_rank hstep
    have hsum := sum_map_set hi t' Task.rank
    simp only [rank]
    omega

theorem Executor.send_rank {s s' : Executor} {execution : JobExecution}
    (h : s.send execution = some s') : s'.rank = s.rank + 9 := by
  rw [Executor.send_eq h]
  simp only [rank, List.length_append, List.length_singleton]
  omega

/-- A call of `queue_job` leaves a send and two writes to do, at most. -/
theorem queueJob_rank (cron : CronCrate) (env : QueueEnv) (s : Schedule) :
    ((queueJob cron env s).1.map Effect.rank).sum ≤ 12 := by
  rcases queueJob_cases cron env s with ⟨-, heff⟩ | ⟨-, -, heff⟩ | ⟨-, -, next, -, heff⟩ |
    ⟨-, next, -, heff⟩
  · simp [heff]
  · simp [heff, Effect.rank]
  · rw [heff, updateEffect]
    split <;> simp [Effect.rank]
  · simp [heff, Effect.rank]

theorem checkLoop_rank (cron : CronCrate) (now : DateTime) (queue : Int → QueueEnv)
    (l : List Schedule) :
    ((checkLoop cron now queue l).map Effect.rank).sum ≤ 12 * l.length := by
  induction l with
  | nil => exact Nat.le_refl 0
  | cons s rest ih =>
    have hone := queueJob_rank cron (queue s.id) s
    rw [checkLoop_cons, List.map_append, List.sum_append, List.length_cons]
    split
    · omega
    · rw [List.map_nil, List.sum_nil]
      omega

/-- The effects of a check change no schedule but by its two times. -/
def Effect.Timed : Effect → Prop
  | .clear => False
  | .insert _ => False
  | _ => True

theorem checkSchedules_timed (cron : CronCrate) (w : World) (t : Tick) :
    ∀ e ∈ checkSchedules cron w t, e.Timed := by
  intro e he
  obtain ⟨s, -, -, he⟩ := mem_checkLoop.1 he
  rcases queueJob_effects he with rfl | ⟨next, -, rfl | rfl⟩ <;> trivial

/-- Such an effect loads no schedule and drops none. -/
theorem World.apply_ids {e : Effect} (he : e.Timed) (w : World) :
    (w.apply e).schedules.ids.length = w.schedules.ids.length := by
  cases e with
  | send e => rfl
  | updateRows jobId last next => rfl
  | clear => exact absurd he id
  | insert s => exact absurd he id
  | advance id last next =>
    have hperm : (w.schedules.advance id last next).ids.Perm w.schedules.ids := by
      refine ScheduleMap.perm_ids.2 ⟨ScheduleMap.ids_nodup _, fun k => ?_⟩
      rw [ScheduleMap.mem_ids, ScheduleMap.get_advance]
      by_cases hk : k = id
      · subst hk
        simp
      · rw [if_neg hk]
    exact hperm.length_eq

/-- `n` schedules are loaded, and only a check is under way. -/
structure Client.Loaded (n : Nat) (c : Client) : Prop where
  loaded : c.world.schedules.ids.length = n
  timed : ∀ e ∈ c.pending, e.Timed

/-- **Every step of the client's own takes one off its rank.** -/
theorem Client.ranked (cron : CronCrate) (ex : JobExecutor) (n : Nat) :
    Ranked (Client.step cron ex) (Client.Loaded n) ClientAction.isWork (ClientAction.load n)
      Client.rank := by
  constructor
  · intro c a c' hc h
    cases a with
    | check t =>
      simp only [Client.step] at h
      split at h
      · cases h
        exact ⟨hc.loaded, checkSchedules_timed cron c.world t⟩
      · cases h
    | effect =>
      simp only [Client.step] at h
      split at h
      · cases h
      · rename_i e rest hp
        have hrest : ∀ e ∈ rest, e.Timed := fun e he => hc.timed e (by
          rw [hp]
          exact List.mem_cons_of_mem _ he)
        split at h <;> cases h
        exact ⟨hc.loaded, hrest⟩
      · rename_i e rest hne hp
        have htimed : ∀ x ∈ e :: rest, x.Timed := hp ▸ hc.timed
        cases h
        refine ⟨?_, fun x hx => htimed x (List.mem_cons_of_mem _ hx)⟩
        exact (World.apply_ids (htimed e List.mem_cons_self) c.world).trans hc.loaded
    | triggerManualBackup jobId =>
      simp only [Client.step] at h
      split at h <;> cases h
      exact ⟨hc.loaded, hc.timed⟩
    | executor b =>
      simp only [Client.step] at h
      split at h <;> cases h
      exact ⟨hc.loaded, hc.timed⟩
  · intro c a c' hc h
    cases a with
    | check t =>
      simp only [Client.step] at h
      split at h
      · rename_i hfree
        cases h
        have hlen : (c.world.snapshot t.order).length ≤ n := by
          refine Nat.le_trans (List.length_filterMap_le _ _) ?_
          rw [hfree.2.length_eq, hc.loaded]
        have hloop := checkLoop_rank cron t.now t.queue (c.world.snapshot t.order)
        simp only [rank, ClientAction.isWork, ClientAction.load, hfree.1, checkSchedules,
          List.map_nil, List.sum_nil, Bool.false_eq_true, if_false]
        omega
      · cases h
    | effect =>
      simp only [Client.step] at h
      split at h
      · cases h
      · rename_i e rest hp
        split at h
        · cases h
        · rename_i executor hsend
          have hrank := Executor.send_rank hsend
          cases h
          simp only [rank, ClientAction.isWork, ClientAction.load, hp, List.map_cons,
            List.sum_cons, Effect.rank, if_true]
          omega
      · rename_i e rest hne hp
        have hone : 1 ≤ e.rank := by
          cases e <;> simp [Effect.rank]
        cases h
        simp only [rank, ClientAction.isWork, ClientAction.load, hp, List.map_cons, List.sum_cons,
          if_true]
        omega
    | triggerManualBackup jobId =>
      simp only [Client.step] at h
      split at h
      · cases h
      · rename_i executor hsend
        have hrank := Executor.send_rank hsend
        cases h
        simp only [rank, ClientAction.isWork, ClientAction.load, Bool.false_eq_true, if_false]
        omega
    | executor b =>
      simp only [Client.step] at h
      split at h
      · cases h
      · rename_i executor hstep
        have hrank := Executor.step_rank hstep
        cases h
        simp only [rank, ClientAction.isWork, ClientAction.load, if_true]
        omega

/-! ## Rest -/

/-- What can go on in a client: the pending effect, the executor's receive, or a task, which can
    take the step it awaits whatever that comes to. -/
inductive Client.CanGoOn (cron : CronCrate) (ex : JobExecutor) (c : Client) : Prop where
  | effect (h : (c.step cron ex .effect).isSome)
  | recv (h : (c.step cron ex (.executor .recv)).isSome)
  | task (i : Nat) (t : Task) (call : TaskCall) (hi : c.executor.parts[i]? = some t)
      (hcall : t.awaits = some call)
      (h : ∀ ev : TaskEvent, ev.call = call → (c.step cron ex (.executor (.task i ev))).isSome)

theorem Client.canGoOn (cron : CronCrate) (ex : JobExecutor) {c : Client} (h : ¬ c.AtRest) :
    c.CanGoOn cron ex := by
  cases hq : c.executor.jobQueue with
  | cons execution rest => exact .recv (by simp [Client.step, Executor.step, hq])
  | nil =>
    by_cases htasks : ∀ t ∈ c.executor.parts, t.isFinished
    · cases hp : c.pending with
      | nil => exact absurd ⟨hp, hq, htasks⟩ h
      | cons e rest =>
        -- the channel is empty, so a send has room
        refine .effect ?_
        cases e <;> simp [Client.step, hp, Executor.send, hq, channelCapacity]
    · obtain ⟨t, ht, hfin⟩ : ∃ t ∈ c.executor.parts, ¬ t.isFinished := by
        simpa using htasks
      obtain ⟨i, hi⟩ := List.mem_iff_getElem?.1 ht
      obtain ⟨call, hcall⟩ : ∃ call, t.awaits = some call :=
        Option.ne_none_iff_exists'.1 fun hnone => hfin (t.awaits_eq_none_iff.1 hnone)
      refine .task i t call hi hcall fun ev hev => ?_
      have hstep := (Task.step_isSome_iff ex c.world.jobs c.executor.shared t ev).2
        (hcall.trans (congrArg some hev.symm))
      obtain ⟨⟨sh, t'⟩, hsome⟩ := Option.isSome_iff_exists.1 hstep
      simp [Client.step, Executor.step, Interleaving.step, hi, hsome]

/-- An event of every call. -/
def TaskCall.event : TaskCall → TaskEvent
  | .getJobById => .getJobById none
  | .canExecute => .canExecute
  | .markRunning => .markRunning
  | .startBackup => .startBackup
  | .createRun => .backup (.createRun .done 0)
  | .runRestic => .backup (.runRestic .other (fun _ => .error "not found") fun _ => .error "")
  | .updateRun => .backup (.updateRun .done 0)
  | .markCompleted => .markCompleted

theorem TaskCall.call_event (k : TaskCall) : k.event.call = k := by
  cases k <;> rfl

/-- There is work to do in a client that is not at rest. -/
theorem Client.exists_work (cron : CronCrate) (ex : JobExecutor) (n : Nat) {c : Client}
    (h : ¬ c.AtRest) :
    ∃ a c', a.isWork = true ∧ ClientAction.load n a = 0 ∧ c.step cron ex a = some c' := by
  cases c.canGoOn cron ex h with
  | effect hs =>
    obtain ⟨c', hc'⟩ := Option.isSome_iff_exists.1 hs
    exact ⟨.effect, c', rfl, rfl, hc'⟩
  | recv hs =>
    obtain ⟨c', hc'⟩ := Option.isSome_iff_exists.1 hs
    exact ⟨.executor .recv, c', rfl, rfl, hc'⟩
  | task i t call hi hcall hs =>
    obtain ⟨c', hc'⟩ := Option.isSome_iff_exists.1 (hs call.event call.call_event)
    exact ⟨.executor (.task i call.event), c', rfl, rfl, hc'⟩

theorem client_registered {cron : CronCrate} {ex : JobExecutor} {w : World} {runs : RunsTable}
    {as : List ClientAction} {c : Client}
    (h : exec (Client.step cron ex) (.init w runs) as = some c) : Registered c.executor := by
  refine exec_invariant (I := fun c : Client => Registered c.executor) ?_
    (Registered.init runs []) h
  intro m a m' hm ha
  rcases Client.step_executor ha with ⟨hsame, -, -⟩ | ⟨execution, -, -, heq⟩ | ⟨b, -, hstep, -⟩
  · rw [hsame]
    exact hm
  · rw [heq]
    exact hm
  · exact hm.step hstep

/-- **The client comes to rest**, whatever its environment answers.  Over every sequence of checks
    and manual triggers and every interleaving: it takes no more steps of its own than these bring
    in, at most 12 for each loaded schedule and check and 9 for each trigger; it can go on unless
    it is at rest; at rest every execution sent has a task that is over, and no registration is
    left; and every state has a run of steps of its own to such a rest. -/
theorem client_comes_to_rest (cron : CronCrate) (ex : JobExecutor) (w : World) (runs : RunsTable)
    (as : List ClientAction) (c : Client)
    (h : exec (Client.step cron ex) (.init w runs) as = some c) :
    c.rank + as.countP ClientAction.isWork ≤
        (as.map (ClientAction.load w.schedules.ids.length)).sum ∧
      (c.AtRest ∨ c.CanGoOn cron ex) ∧
      (c.AtRest → c.executor.shared.runningJobs = ∅ ∧
        trace (Client.step cron ex) Client.sent (.init w runs) as =
          c.executor.parts.map Task.execution ∧
        ∀ t ∈ c.executor.parts, ∃ e, t.phase = .finished e) ∧
      ∃ bs c', (∀ b ∈ bs, b.isWork = true) ∧ bs.length ≤ c.rank ∧
        exec (Client.step cron ex) c bs = some c' ∧ c'.AtRest := by
  have hranked := Client.ranked cron ex w.schedules.ids.length
  have hinit : (Client.init w runs).Loaded w.schedules.ids.length :=
    ⟨rfl, fun e he => absurd he List.not_mem_nil⟩
  have hloaded := exec_invariant hranked.keeps hinit h
  refine ⟨?_, ?_, fun hrest => ⟨?_, ?_, hrest.tasks⟩, ?_⟩
  · have hzero : (Client.init w runs).rank = 0 := rfl
    have hwork := hranked.work_le hinit h
    omega
  · by_cases hrest : c.AtRest
    · exact .inl hrest
    · exact .inr (c.canGoOn cron ex hrest)
  · -- an entry would belong to a task in flight
    refine AList.ext (List.eq_nil_iff_forall_not_mem.2 fun e he => ?_)
    obtain ⟨i, t, hi, hfl, -⟩ := client_registered h e.1 e.2 (AList.mem_lookup_iff.2 he)
    obtain ⟨last, hlast⟩ := hrest.tasks t (List.mem_of_getElem? hi)
    simp [Task.inFlight, hlast] at hfl
  · rw [← (executions_of_exec h).1, Executor.executions, hrest.jobQueue, List.append_nil]
  · obtain ⟨bs, c', hbs, hc', hidle⟩ := hranked.exec_idle Client.AtRest
      (fun s _ hs => Client.exists_work cron ex w.schedules.ids.length hs) hloaded
    have hlen := hranked.length_le hloaded hbs hc'
    exact ⟨bs, c', fun b hb => (hbs b hb).1, by omega, hc', hidle⟩

/-- A task that has just been received has eight steps left, of the nine its trigger brought in. -/
theorem client_comes_to_rest_manual :
    let w : World := .ofRows [.plain 1 "blade"] []
    let as : List ClientAction := [.triggerManualBackup 1, .executor .recv]
    ∃ c, exec (Client.step .everyMinute (.withCap 1)) (.init w .empty) as = some c ∧
      c.rank = 8 ∧ ¬ c.AtRest ∧ (c.AtRest ∨ c.CanGoOn .everyMinute (.withCap 1)) := by
  intro w as
  refine ⟨_, rfl, by decide, fun h => ?_,
    (client_comes_to_rest .everyMinute (.withCap 1) w .empty as _ rfl).2.1⟩
  obtain ⟨e, he⟩ := h.tasks ⟨⟨1, "manual"⟩, .received⟩ List.mem_cons_self
  cases he

end RBackup2
