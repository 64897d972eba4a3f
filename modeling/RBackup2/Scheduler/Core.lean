import RBackup2.Db.Queries
import RBackup2.Scheduler.Executor
import RBackup2.Scheduler.ScheduleCalc

/-!
# The scheduler

`scheduler.rs`.  `check_schedules` and `reload_schedules` read the shared state once (the cloned
map, the SELECT) and then only write to it; each is a function from what it read, and from what
the environment decides on the way, to the list of its effects in order and its result.  Applying
the effects one after the other gives the step of the whole call; applying them one at a time,
between the steps of others, gives the interleavings.

* `ScheduleMap` — the map of the loaded schedules, each under its own id.
* `queueJob`, `checkSchedules`, `reloadSchedules` — the effects of the source's functions.
* `queueJob_cases` — everything a call of `queue_job` can do.
-/

set_option autoImplicit false

namespace RBackup2

open Transition

/-! ## The schedules in memory -/

/-- `Scheduler::schedules`: every schedule stands under its id. -/
structure ScheduleMap where
  map : HashMap Int Schedule
  keyed : ∀ id s, map.lookup id = some s → s.id = id

namespace ScheduleMap

def empty : ScheduleMap := ⟨∅, by intro id s h; simp at h⟩

def get (m : ScheduleMap) (id : Int) : Option Schedule := m.map.lookup id

def insert (m : ScheduleMap) (s : Schedule) : ScheduleMap where
  map := m.map.insert s.id s
  keyed := by
    intro id s' h
    by_cases hid : id = s.id
    · subst hid
      rw [AList.lookup_insert, Option.some.injEq] at h
      rw [← h]
    · rw [AList.lookup_insert_ne hid] at h
      exact m.keyed id s' h

/-- `get_mut(&id)` and the two assignments under it. -/
def advance (m : ScheduleMap) (id : Int) (lastRunAt nextRunAt : DateTime) : ScheduleMap :=
  match m.get id with
  | none => m
  | some s => m.insert { s with lastRunAt := some lastRunAt, nextRunAt := some nextRunAt }

/-- The ids in the map, in some order. -/
def ids (m : ScheduleMap) : List Int := m.map.keys

theorem id_eq {m : ScheduleMap} {id : Int} {s : Schedule} (h : m.get id = some s) : s.id = id :=
  m.keyed id s h

@[simp] theorem get_empty (id : Int) : empty.get id = none := AList.lookup_empty id

theorem get_insert (m : ScheduleMap) (s : Schedule) (id : Int) :
    (m.insert s).get id = if id = s.id then some s else m.get id := by
  unfold get insert
  split
  · rename_i h
    rw [h, AList.lookup_insert]
  · rename_i h
    rw [AList.lookup_insert_ne h]

/-- An entry is the one put in or one that was there. -/
theorem get_insert_cases {m : ScheduleMap} {s s' : Schedule} {id : Int}
    (h : (m.insert s).get id = some s') : s' = s ∨ m.get id = some s' := by
  rw [get_insert] at h
  split at h
  · exact .inl (Option.some.inj h).symm
  · exact .inr h

theorem get_advance (m : ScheduleMap) (id : Int) (last next : DateTime) (k : Int) :
    (m.advance id last next).get k =
      if k = id then
        (m.get id).map fun s => { s with lastRunAt := some last, nextRunAt := some next }
      else m.get k := by
  unfold advance
  split
  · rename_i h
    split
    · rename_i hk
      rw [hk, h, Option.map_none]
    · rfl
  · rename_i s h
    have hid := m.id_eq h
    rw [get_insert, h, Option.map_some]
    simp only [hid]

theorem advance_eq {m : ScheduleMap} {id : Int} {s : Schedule} (h : m.get id = some s)
    (last next : DateTime) : m.advance id last next =
      m.insert { s with lastRunAt := some last, nextRunAt := some next } := by
  unfold advance
  rw [h]

theorem mem_ids {m : ScheduleMap} {id : Int} : id ∈ m.ids ↔ ∃ s, m.get id = some s := by
  rw [← Option.isSome_iff_exists]
  exact AList.lookup_isSome.symm

theorem ids_nodup (m : ScheduleMap) : m.ids.Nodup := m.map.keys_nodup

/-- Two maps with the same ids are visited in the same orders. -/
theorem perm_ids {m : ScheduleMap} {order : List Int} :
    order.Perm m.ids ↔ order.Nodup ∧ ∀ id, id ∈ order ↔ ∃ s, m.get id = some s := by
  constructor
  · intro h
    exact ⟨h.nodup_iff.2 m.ids_nodup, fun id => h.mem_iff.trans mem_ids⟩
  · rintro ⟨hnd, hmem⟩
    exact (List.perm_ext_iff_of_nodup hnd m.ids_nodup).2 fun id => (hmem id).trans mem_ids.symm

end ScheduleMap

/-! ## Effects -/

/-- An execution handed to the queue: who for, and the reading that follows the send. -/
structure Enqueue where
  scheduleId : Int
  execution : JobExecution
  reading : DateTime
  deriving DecidableEq, Repr

inductive Effect where
  /-- `job_queue_tx.send(execution).await`. -/
  | send (e : Enqueue)
  /-- An UPDATE of `schedules` that takes effect. -/
  | updateRows (jobId : Uuid) (lastRunAt : DateTime) (nextRunAt : Option DateTime)
  /-- The locked write to the schedule of an id. -/
  | advance (id : Int) (lastRunAt nextRunAt : DateTime)
  | clear
  | insert (s : Schedule)

def Effect.sent : Effect → Option Enqueue
  | .send e => some e
  | _ => none

/-- The two tables the scheduler uses and its map. -/
structure World where
  jobs : List BackupJob
  rows : List Schedule
  schedules : ScheduleMap

def World.apply (w : World) : Effect → World
  | .send _ => w
  | .updateRows jobId last next => { w with rows := updateScheduleLastRun jobId last next w.rows }
  | .advance id last next => { w with schedules := w.schedules.advance id last next }
  | .clear => { w with schedules := .empty }
  | .insert s => { w with schedules := w.schedules.insert s }

def World.applyAll (w : World) (es : List Effect) : World := es.foldl World.apply w

theorem World.applyAll_append (w : World) (es fs : List Effect) :
    w.applyAll (es ++ fs) = (w.applyAll es).applyAll fs := List.foldl_append

/-! ## Queueing a job -/

/-- What the environment decides in a call of `queue_job`. -/
structure QueueEnv where
  /-- An error if the channel is closed. -/
  send : Except String Unit
  /-- `Utc::now()` after the send. -/
  now : DateTime
  update : DbOutcome

/-- An UPDATE of the two times of a job's schedules. -/
def updateEffect (o : DbOutcome) (jobId : Uuid) (last : DateTime) (next : Option DateTime) :
    List Effect :=
  if o.applied then [.updateRows jobId last next] else []

/-- `Scheduler::queue_job`. -/
def queueJob (cron : CronCrate) (env : QueueEnv) (schedule : Schedule) :
    List Effect × Except AppError Unit :=
  let execution : JobExecution := ⟨schedule.jobId, "schedule"⟩
  match env.send with
  | .error e => ([], .error (.scheduler (.jobNotFound e)))
  | .ok () =>
    let now := env.now
    let sent := [Effect.send ⟨schedule.id, execution, now⟩]
    match calculateNextRun cron schedule (some now) now with
    | .error e => (sent, .error e)
    | .ok nextRun =>
      let updated := sent ++ updateEffect env.update schedule.jobId now (some nextRun)
      match env.update.result () with
      | .error e => (updated, .error e)
      | .ok () => (updated ++ [.advance schedule.id now nextRun], .ok ())

/-- The loop of `Scheduler::check_schedules` over the cloned schedules; an error of `queue_job`
    is only logged. -/
def checkLoop (cron : CronCrate) (now : DateTime) (queue : Int → QueueEnv) :
    List Schedule → List Effect
  | [] => []
  | schedule :: rest =>
    if schedule.enabled = false then checkLoop cron now queue rest
    else if isDue schedule now then
      (queueJob cron (queue schedule.id) schedule).1 ++ checkLoop cron now queue rest
    else checkLoop cron now queue rest

/-- One call of `check_schedules`: the tick's reading, the order in which the clone of the map is
    visited, and what happens in the calls of `queue_job`. -/
structure Tick where
  now : DateTime
  order : List Int
  queue : Int → QueueEnv

/-- The clone of the map, in the order it is visited. -/
def World.snapshot (w : World) (order : List Int) : List Schedule :=
  order.filterMap w.schedules.get

/-- `Scheduler::check_schedules`: its effects; it always returns `Ok(())`. -/
def checkSchedules (cron : CronCrate) (w : World) (t : Tick) : List Effect :=
  checkLoop cron t.now t.queue (w.snapshot t.order)

/-- A whole check, if the tick visits every schedule once. -/
def World.tick (cron : CronCrate) (w : World) (t : Tick) : Option World :=
  if t.order.Perm w.schedules.ids then some (w.applyAll (checkSchedules cron w t)) else none

/-- What a check enqueues. -/
def tickSends (cron : CronCrate) (w : World) (t : Tick) : List Enqueue :=
  (checkSchedules cron w t).filterMap Effect.sent

/-! ## Loading the schedules -/

/-- What the environment decides in a call of `reload_schedules`; readings and UPDATEs by id. -/
structure ReloadEnv where
  select : Except String Unit
  now : Int → DateTime
  update : Int → DbOutcome

/-- The loop of `Scheduler::reload_schedules`; a failed UPDATE is only logged. -/
def reloadLoop (cron : CronCrate) (env : ReloadEnv) :
    List Schedule → List Effect × Except AppError Unit
  | [] => ([], .ok ())
  | schedule :: rest =>
    match schedule.nextRunAt with
    | some _ =>
      let r := reloadLoop cron env rest
      (.insert schedule :: r.1, r.2)
    | none =>
      let now := env.now schedule.id
      match calculateNextRun cron schedule schedule.lastRunAt now with
      | .error e => ([], .error e)
      | .ok nextRun =>
        let r := reloadLoop cron env rest
        (updateEffect (env.update schedule.id) schedule.jobId (schedule.lastRunAt.getD now)
            (some nextRun) ++
          .insert { schedule with nextRunAt := some nextRun } :: r.1, r.2)

/-- `Scheduler::reload_schedules`, after the SELECT returned `dbSchedules`. -/
def reloadSchedules (cron : CronCrate) (env : ReloadEnv) (dbSchedules : List Schedule) :
    List Effect × Except AppError Unit :=
  match env.select with
  | .error err => ([], .error (.ofSqlx err))
  | .ok () =>
    let r := reloadLoop cron env dbSchedules
    (.clear :: r.1, r.2)

/-- A whole load for a device. -/
def World.reload (cron : CronCrate) (deviceId : String) (env : ReloadEnv) (w : World) :
    World × Except AppError Unit :=
  let r := reloadSchedules cron env (getSchedulesForDevice w.jobs w.rows deviceId)
  (w.applyAll r.1, r.2)

/-! ## Some values -/

/-- A database whose schedules are all in memory. -/
def World.ofRows (jobs : List BackupJob) (rows : List Schedule) : World where
  jobs := jobs
  rows := rows
  schedules := rows.foldl ScheduleMap.insert .empty

/-- A call of `queue_job` in which everything succeeds. -/
def QueueEnv.succeeding (now : DateTime) : QueueEnv := ⟨.ok (), now, .done⟩

/-! ## What a call of `queue_job` does -/

/-- The call sends, gets a next time and has its UPDATE confirmed. -/
def QueueEnv.Succeeds (cron : CronCrate) (env : QueueEnv) (s : Schedule) : Prop :=
  env.send = .ok () ∧ (∃ next, calculateNextRun cron s (some env.now) env.now = .ok next) ∧
    env.update = .done

theorem queueJob_ok {cron : CronCrate} {env : QueueEnv} {s : Schedule}
    (h : env.Succeeds cron s) : ∃ next, calculateNextRun cron s (some env.now) env.now = .ok next ∧
      queueJob cron env s = ([.send ⟨s.id, ⟨s.jobId, "schedule"⟩, env.now⟩,
        .updateRows s.jobId env.now (some next), .advance s.id env.now next], .ok ()) := by
  obtain ⟨hsend, ⟨next, hnext⟩, hupd⟩ := h
  refine ⟨next, hnext, ?_⟩
  simp [queueJob, hsend, hnext, hupd, updateEffect, DbOutcome.applied, DbOutcome.result]

/-- **Everything a call of `queue_job` can do.** -/
theorem queueJob_cases (cron : CronCrate) (env : QueueEnv) (s : Schedule) :
    ((∃ e, env.send = .error e) ∧ (queueJob cron env s).1 = []) ∨
    (env.send = .ok () ∧ (∃ e, calculateNextRun cron s (some env.now) env.now = .error e) ∧
      (queueJob cron env s).1 = [.send ⟨s.id, ⟨s.jobId, "schedule"⟩, env.now⟩]) ∨
    (env.send = .ok () ∧ env.update ≠ .done ∧
      ∃ next, calculateNextRun cron s (some env.now) env.now = .ok next ∧
        (queueJob cron env s).1 = .send ⟨s.id, ⟨s.jobId, "schedule"⟩, env.now⟩ ::
          updateEffect env.update s.jobId env.now (some next)) ∨
    (env.Succeeds cron s ∧ ∃ next, calculateNextRun cron s (some env.now) env.now = .ok next ∧
      (queueJob cron env s).1 = [.send ⟨s.id, ⟨s.jobId, "schedule"⟩, env.now⟩,
        .updateRows s.jobId env.now (some next), .advance s.id env.now next]) := by
  cases hsend : env.send with
  | error e => exact .inl ⟨⟨e, rfl⟩, by simp [queueJob, hsend]⟩
  | ok u =>
    right
    cases hnext : calculateNextRun cron s (some env.now) env.now with
    | error e => exact .inl ⟨rfl, ⟨e, rfl⟩, by simp [queueJob, hsend, hnext]⟩
    | ok next =>
      right
      by_cases hupd : env.update = .done
      · have hok : env.Succeeds cron s := ⟨hsend, ⟨next, hnext⟩, hupd⟩
        obtain ⟨next', hnext', heq⟩ := queueJob_ok hok
        cases hnext.symm.trans hnext'
        exact .inr ⟨hok, next, rfl, by rw [heq]⟩
      · obtain ⟨e, he⟩ := DbOutcome.result_of_ne_done hupd
        exact .inl ⟨rfl, hupd, next, rfl, by simp [queueJob, hsend, hnext, he]⟩

end RBackup2
