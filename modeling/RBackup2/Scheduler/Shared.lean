import RBackup2.Scheduler.Reload

/-!
# The two tasks of a scheduler

`reload_schedules` and `check_schedules` run on one shared `Scheduler`, any number of times and at
the same time.  The map is behind a mutex: the loop of a load holds it from the `clear` to the end,
a check holds it to clone the map and for each write of `queue_job`.  The database has no such lock:
the SELECT of a load comes before it takes the mutex, and the UPDATE of `queue_job` needs none.

* `SharedScheduler.step` — one step of either task, between two awaits.
* `SharedScheduler.step_cases` — everything a step can do.
* `SharedScheduler.exec_reload`, `exec_check` — a load or a check that is left alone does what the
  function of the source does.
-/

set_option autoImplicit false

namespace RBackup2

open Transition

/-- Where the call of `reload_schedules` stands. -/
inductive ReloadPhase where
  | idle
  /-- Its SELECT has returned these rows. -/
  | selected (rows : List Schedule)
  /-- It holds the lock on the map, with these effects still to come. -/
  | locked (effects : List Effect)

structure SharedScheduler where
  world : World
  reloading : ReloadPhase
  /-- What the current call of `check_schedules` has still to do. -/
  pending : List Effect
  /-- What the calls of `check_schedules` have done so far, oldest first. -/
  past : List Effect

inductive SchedulerAction where
  /-- The SELECT of a load. -/
  | select
  /-- The load takes the lock and enters its loop. -/
  | lock (env : ReloadEnv)
  | reloadEffect
  /-- The load returns, and the lock is released. -/
  | unlock
  /-- A check reads the clock and clones the map. -/
  | check (t : Tick)
  | effect

/-- No load holds the lock on the map. -/
def ReloadPhase.free : ReloadPhase → Bool
  | .locked _ => false
  | _ => true

/-- Every database call of the step succeeds. -/
def SchedulerAction.DbSucceeds : SchedulerAction → Prop
  | .lock env => env.select = .ok () ∧ ∀ id, env.update id = .done
  | .check t => ∀ id, (t.queue id).update = .done
  | _ => True

/-- The effect is a write to the map. -/
def Effect.onMap : Effect → Bool
  | .send _ => false
  | .updateRows _ _ _ => false
  | .advance _ _ _ => true
  | .clear => true
  | .insert _ => true

def SharedScheduler.step (cron : CronCrate) (deviceId : String) (s : SharedScheduler) :
    SchedulerAction → Option SharedScheduler
  | .select =>
    match s.reloading with
    | .idle =>
      some { s with
        reloading := .selected (getSchedulesForDevice s.world.jobs s.world.rows deviceId) }
    | _ => none
  | .lock env =>
    match s.reloading with
    | .selected rows =>
      some { s with reloading := .locked (.clear :: (reloadLoop cron env rows).1) }
    | _ => none
  | .reloadEffect =>
    match s.reloading with
    | .locked (e :: rest) => some { s with world := s.world.apply e, reloading := .locked rest }
    | _ => none
  | .unlock =>
    match s.reloading with
    | .locked [] => some { s with reloading := .idle }
    | _ => none
  | .check t =>
    if s.pending = [] ∧ s.reloading.free = true ∧ t.order.Perm s.world.schedules.ids then
      some { s with pending := checkSchedules cron s.world t }
    else none
  | .effect =>
    match s.pending with
    | [] => none
    | e :: rest =>
      if e.onMap = true ∧ s.reloading.free = false then none
      else some { s with world := s.world.apply e, pending := rest, past := s.past ++ [e] }

/-- A scheduler at rest. -/
def SharedScheduler.init (w : World) : SharedScheduler := ⟨w, .idle, [], []⟩

/-- The executions enqueued so far. -/
def SharedScheduler.sent (s : SharedScheduler) : List Enqueue := s.past.filterMap Effect.sent

/-- **Everything a step can do.** -/
theorem SharedScheduler.step_cases {cron : CronCrate} {deviceId : String} {s s' : SharedScheduler}
    {a : SchedulerAction} (h : s.step cron deviceId a = some s') :
    (a = .select ∧ s.reloading = .idle ∧ s' = { s with
      reloading := .selected (getSchedulesForDevice s.world.jobs s.world.rows deviceId) }) ∨
    (∃ env rows, a = .lock env ∧ s.reloading = .selected rows ∧
      s' = { s with reloading := .locked (.clear :: (reloadLoop cron env rows).1) }) ∨
    (∃ e rest, a = .reloadEffect ∧ s.reloading = .locked (e :: rest) ∧
      s' = { s with world := s.world.apply e, reloading := .locked rest }) ∨
    (a = .unlock ∧ s.reloading = .locked [] ∧ s' = { s with reloading := .idle }) ∨
    (∃ t, a = .check t ∧ s.pending = [] ∧ s.reloading.free = true ∧
      t.order.Perm s.world.schedules.ids ∧
      s' = { s with pending := checkSchedules cron s.world t }) ∨
    (∃ e rest, a = .effect ∧ s.pending = e :: rest ∧ (e.onMap = true → s.reloading.free = true) ∧
      s' = { s with world := s.world.apply e, pending := rest, past := s.past ++ [e] }) := by
  cases a with
  | select =>
    left
    simp only [SharedScheduler.step] at h
    split at h
    · rename_i hr
      cases h
      exact ⟨rfl, hr, rfl⟩
    · cases h
  | lock env =>
    right; left
    simp only [SharedScheduler.step] at h
    split at h
    · rename_i rows hr
      cases h
      exact ⟨env, rows, rfl, hr, rfl⟩
    · cases h
  | reloadEffect =>
    right; right; left
    simp only [SharedScheduler.step] at h
    split at h
    · rename_i e rest hr
      cases h
      exact ⟨e, rest, rfl, hr, rfl⟩
    · cases h
  | unlock =>
    right; right; right; left
    simp only [SharedScheduler.step] at h
    split at h
    · rename_i hr
      cases h
      exact ⟨rfl, hr, rfl⟩
    · cases h
  | check t =>
    right; right; right; right; left
    simp only [SharedScheduler.step] at h
    split at h
    · rename_i hfree
      cases h
      exact ⟨t, rfl, hfree.1, hfree.2.1, hfree.2.2, rfl⟩
    · cases h
  | effect =>
    right; right; right; right; right
    simp only [SharedScheduler.step] at h
    split at h
    · cases h
    · rename_i e rest hp
      split at h
      · cases h
      · rename_i hfree
        cases h
        refine ⟨e, rest, rfl, hp, fun hmap => ?_, rfl⟩
        cases hf : s.reloading.free with
        | true => rfl
        | false => exact absurd ⟨hmap, hf⟩ hfree

theorem SharedScheduler.check_eq {cron : CronCrate} {deviceId : String} {s s' : SharedScheduler}
    {t : Tick} (h : s.step cron deviceId (.check t) = some s') :
    s.reloading.free = true ∧ t.order.Perm s.world.schedules.ids ∧
      s' = { s with pending := checkSchedules cron s.world t } := by
  simp only [SharedScheduler.step] at h
  split at h
  · rename_i hfree
    cases h
    exact ⟨hfree.2.1, hfree.2.2, rfl⟩
  · cases h

/-- Neither task writes to `backup_jobs`. -/
theorem SharedScheduler.step_jobs {cron : CronCrate} {deviceId : String} {s s' : SharedScheduler}
    {a : SchedulerAction} (h : s.step cron deviceId a = some s') :
    s'.world.jobs = s.world.jobs := by
  have happly : ∀ (w : World) (e : Effect), (w.apply e).jobs = w.jobs := by
    intro w e
    cases e <;> rfl
  obtain ⟨-, -, rfl⟩ | ⟨env, rows, -, -, rfl⟩ | ⟨e, rest, -, -, rfl⟩ | ⟨-, -, rfl⟩ |
    ⟨t, -, -, -, -, rfl⟩ | ⟨e, rest, -, -, -, rfl⟩ := SharedScheduler.step_cases h
  · rfl
  · rfl
  · exact happly s.world e
  · rfl
  · rfl
  · exact happly s.world e

/-! ## Calls that are left alone -/

/-- The steps of a whole load, and of a whole check. -/
def SchedulerAction.load (env : ReloadEnv) (n : Nat) : List SchedulerAction :=
  [.select, .lock env] ++ List.replicate n .reloadEffect ++ [.unlock]

def SchedulerAction.wholeCheck (t : Tick) (n : Nat) : List SchedulerAction :=
  .check t :: List.replicate n .effect

theorem exec_reloadEffects (cron : CronCrate) (deviceId : String) :
    ∀ (es : List Effect) (w : World) (pending past : List Effect),
      exec (SharedScheduler.step cron deviceId) ⟨w, .locked es, pending, past⟩
        (List.replicate es.length .reloadEffect) = some ⟨w.applyAll es, .locked [], pending, past⟩
  | [], _, _, _ => rfl
  | e :: es, w, pending, past =>
    exec_cons.2 ⟨_, rfl, exec_reloadEffects cron deviceId es (w.apply e) pending past⟩

theorem exec_effects (cron : CronCrate) (deviceId : String) :
    ∀ (es : List Effect) (w : World) (past : List Effect),
      exec (SharedScheduler.step cron deviceId) ⟨w, .idle, es, past⟩
        (List.replicate es.length .effect) = some ⟨w.applyAll es, .idle, [], past ++ es⟩
  | [], w, past => by simp [World.applyAll]
  | e :: es, w, past => by
    have ih := exec_effects cron deviceId es (w.apply e) (past ++ [e])
    rw [List.append_assoc] at ih
    exact exec_cons.2 ⟨_, by simp [SharedScheduler.step, ReloadPhase.free], ih⟩

/-- **A load that is left alone** does what `reload_schedules` does. -/
theorem SharedScheduler.exec_reload (cron : CronCrate) (deviceId : String) (env : ReloadEnv)
    (w : World) (past : List Effect) (hsel : env.select = .ok ()) :
    ∃ n, exec (SharedScheduler.step cron deviceId) ⟨w, .idle, [], past⟩
      (SchedulerAction.load env n) = some ⟨(w.reload cron deviceId env).1, .idle, [], past⟩ := by
  let rows := getSchedulesForDevice w.jobs w.rows deviceId
  let es := Effect.clear :: (reloadLoop cron env rows).1
  have hworld : (w.reload cron deviceId env).1 = w.applyAll es := by
    unfold World.reload reloadSchedules
    rw [hsel]
  refine ⟨es.length, ?_⟩
  rw [hworld]
  refine exec_concat.2 ⟨⟨w.applyAll es, .locked [], [], past⟩, ?_, rfl⟩
  refine exec_append.2 ⟨⟨w, .locked es, [], past⟩, rfl, ?_⟩
  exact exec_reloadEffects cron deviceId es w [] past

/-- **A check that is left alone** does what `check_schedules` does. -/
theorem SharedScheduler.exec_check (cron : CronCrate) (deviceId : String) {w w' : World} {t : Tick}
    (past : List Effect) (h : w.tick cron t = some w') :
    ∃ n, exec (SharedScheduler.step cron deviceId) ⟨w, .idle, [], past⟩
      (SchedulerAction.wholeCheck t n) = some ⟨w', .idle, [], past ++ checkSchedules cron w t⟩ := by
  obtain ⟨hp, rfl⟩ := World.tick_eq h
  refine ⟨(checkSchedules cron w t).length, exec_cons.2
    ⟨⟨w, .idle, checkSchedules cron w t, past⟩, ?_, ?_⟩⟩
  · simp [SharedScheduler.step, ReloadPhase.free, hp]
  · exact exec_effects cron deviceId _ w past

end RBackup2
