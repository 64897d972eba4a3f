import RBackup2.Scheduler.Core

/-!
# One check

What a whole call of `check_schedules` does, for every outcome of its calls of `queue_job`: each
schedule is treated on its own, whatever the order in which the map is visited.

* `World.tick_get` — a schedule after the check is a function of that schedule before it.
* `mem_tickSends`, `tickSends_nodup` — who is enqueued, and that nobody is enqueued twice.
* `tickSends_eq_filterMap` — the enqueues, in the order of the visit.
-/

set_option autoImplicit false

namespace RBackup2

open Transition

/-- The check calls `queue_job` for the schedule. -/
def Schedule.fires (s : Schedule) (now : DateTime) : Bool := s.enabled && isDue s now

/-- A call of `queue_job` that succeeds sets both times of the schedule. -/
def Schedule.queued (cron : CronCrate) (env : QueueEnv) (s : Schedule) : Schedule :=
  match (queueJob cron env s).2, calculateNextRun cron s (some env.now) env.now with
  | .ok (), .ok next => { s with lastRunAt := some env.now, nextRunAt := some next }
  | _, _ => s

/-- The schedule after a check. -/
def Schedule.checked (cron : CronCrate) (now : DateTime) (env : QueueEnv) (s : Schedule) :
    Schedule :=
  if s.fires now then s.queued cron env else s

/-- The channel takes the execution. -/
def QueueEnv.sends (env : QueueEnv) : Bool :=
  match env.send with
  | .ok () => true
  | .error _ => false

/-- What `queue_job` sends for a schedule. -/
def enqueueOf (queue : Int → QueueEnv) (s : Schedule) : Enqueue :=
  ⟨s.id, ⟨s.jobId, "schedule"⟩, (queue s.id).now⟩

theorem Schedule.queued_of_succeeds {cron : CronCrate} {env : QueueEnv} {s : Schedule}
    {next : DateTime} (h : env.Succeeds cron s)
    (hnext : calculateNextRun cron s (some env.now) env.now = .ok next) :
    s.queued cron env = { s with lastRunAt := some env.now, nextRunAt := some next } := by
  obtain ⟨next', hnext', heq⟩ := queueJob_ok h
  unfold Schedule.queued
  rw [heq, hnext]

/-- A call that fails does not touch the schedule. -/
theorem Schedule.queued_of_not_succeeds {cron : CronCrate} {env : QueueEnv} {s : Schedule}
    (h : ¬ env.Succeeds cron s) : s.queued cron env = s := by
  rcases queueJob_cases cron env s with ⟨⟨e, hsend⟩, -⟩ | ⟨-, ⟨e, hnext⟩, -⟩ |
    ⟨hsend, hupd, next, hnext, -⟩ | ⟨hok, -⟩
  · simp [Schedule.queued, queueJob, hsend]
  · simp [Schedule.queued, hnext]
  · obtain ⟨e, he⟩ := DbOutcome.result_of_ne_done hupd
    simp [Schedule.queued, queueJob, hsend, hnext, he]
  · exact absurd hok h

/-- A check never changes what defines a schedule. -/
theorem Schedule.checked_sameDefinition (cron : CronCrate) (now : DateTime) (env : QueueEnv)
    (s : Schedule) : s.SameDefinition (s.checked cron now env) := by
  unfold Schedule.checked
  split
  · unfold Schedule.queued
    split
    · exact .setTimes s _ _
    · exact .refl s
  · exact .refl s

/-! ## The effects of one call -/

/-- The send of a call, and its two writes with the time it has calculated. -/
theorem queueJob_effects {cron : CronCrate} {env : QueueEnv} {s : Schedule} {e : Effect}
    (h : e ∈ (queueJob cron env s).1) :
    e = .send ⟨s.id, ⟨s.jobId, "schedule"⟩, env.now⟩ ∨
    ∃ next, calculateNextRun cron s (some env.now) env.now = .ok next ∧
      (e = .updateRows s.jobId env.now (some next) ∨ e = .advance s.id env.now next) := by
  rcases queueJob_cases cron env s with ⟨-, heff⟩ | ⟨-, -, heff⟩ | ⟨-, -, next, hnext, heff⟩ |
    ⟨-, next, hnext, heff⟩
  · rw [heff] at h
    cases h
  · rw [heff] at h
    exact .inl (List.mem_singleton.1 h)
  · rw [heff] at h
    rcases List.mem_cons.1 h with h | h
    · exact .inl h
    · unfold updateEffect at h
      split at h
      · exact .inr ⟨next, hnext, .inl (List.mem_singleton.1 h)⟩
      · cases h
  · rw [heff] at h
    rcases List.mem_cons.1 h with h | h
    · exact .inl h
    · rcases List.mem_cons.1 h with h | h
      · exact .inr ⟨next, hnext, .inl h⟩
      · exact .inr ⟨next, hnext, .inr (List.mem_singleton.1 h)⟩

/-- The send of a call of `queue_job`. -/
theorem sent_of_mem_queueJob {cron : CronCrate} {env : QueueEnv} {u : Schedule} {x : Effect}
    {e : Enqueue} (hx : x ∈ (queueJob cron env u).1) (he : x.sent = some e) :
    env.send = .ok () ∧ e = ⟨u.id, ⟨u.jobId, "schedule"⟩, env.now⟩ := by
  constructor
  · rcases queueJob_cases cron env u with ⟨-, heff⟩ | ⟨hsend, -⟩ | ⟨hsend, -⟩ | ⟨⟨hsend, -⟩, -⟩
    · rw [heff] at hx
      cases hx
    · exact hsend
    · exact hsend
    · exact hsend
  · rcases queueJob_effects hx with rfl | ⟨next, -, rfl | rfl⟩
    · exact (Option.some.inj he).symm
    · cases he
    · cases he

/-- A call that fails writes to the database at most. -/
theorem queueJob_schedules {cron : CronCrate} {env : QueueEnv} {s : Schedule}
    (h : ¬ env.Succeeds cron s) (w : World) :
    (w.applyAll (queueJob cron env s).1).schedules = w.schedules := by
  rcases queueJob_cases cron env s with ⟨-, heff⟩ | ⟨-, -, heff⟩ | ⟨-, -, next, -, heff⟩ | ⟨hok, -⟩
  · rw [heff]
    rfl
  · rw [heff]
    rfl
  · rw [heff]
    unfold updateEffect
    split <;> rfl
  · exact absurd hok h

theorem queueJob_get {cron : CronCrate} {env : QueueEnv} {s : Schedule} {w : World}
    (hs : w.schedules.get s.id = some s) (k : Int) :
    (w.applyAll (queueJob cron env s).1).schedules.get k =
      if k = s.id then some (s.queued cron env) else w.schedules.get k := by
  by_cases hok : env.Succeeds cron s
  · obtain ⟨next, hnext, heff⟩ := queueJob_ok hok
    rw [heff, Schedule.queued_of_succeeds hok hnext]
    show (w.schedules.advance s.id env.now next).get k = _
    rw [ScheduleMap.get_advance, hs, Option.map_some]
  · rw [queueJob_schedules hok, Schedule.queued_of_not_succeeds hok]
    split
    · rename_i hk
      rw [hk, hs]
    · rfl

theorem queueJob_sends (cron : CronCrate) (queue : Int → QueueEnv) (s : Schedule) :
    (queueJob cron (queue s.id) s).1.filterMap Effect.sent =
      if (queue s.id).sends then [enqueueOf queue s] else [] := by
  rcases queueJob_cases cron (queue s.id) s with ⟨⟨e, hsend⟩, heff⟩ | ⟨hsend, -, heff⟩ |
    ⟨hsend, -, next, -, heff⟩ | ⟨⟨hsend, -⟩, next, -, heff⟩
  · simp [heff, QueueEnv.sends, hsend]
  · simp [heff, QueueEnv.sends, hsend, Effect.sent, enqueueOf]
  · have hnone : (updateEffect (queue s.id).update s.jobId (queue s.id).now (some next)).filterMap
        Effect.sent = [] := by
      unfold updateEffect
      split <;> rfl
    simp [heff, QueueEnv.sends, hsend, Effect.sent, enqueueOf, hnone]
  · simp [heff, QueueEnv.sends, hsend, Effect.sent, enqueueOf]

/-! ## The loop -/

theorem checkLoop_cons (cron : CronCrate) (now : DateTime) (queue : Int → QueueEnv) (s : Schedule)
    (rest : List Schedule) : checkLoop cron now queue (s :: rest) =
      (if s.fires now then (queueJob cron (queue s.id) s).1 else []) ++
        checkLoop cron now queue rest := by
  cases hen : s.enabled <;> cases hdue : isDue s now <;>
    simp [checkLoop, Schedule.fires, hen, hdue]

/-- An effect of a check is one of a call of `queue_job` for a schedule that fires. -/
theorem mem_checkLoop {cron : CronCrate} {now : DateTime} {queue : Int → QueueEnv} {e : Effect}
    {l : List Schedule} : e ∈ checkLoop cron now queue l ↔
      ∃ s ∈ l, s.fires now = true ∧ e ∈ (queueJob cron (queue s.id) s).1 := by
  induction l with
  | nil => exact ⟨fun h => absurd h List.not_mem_nil, fun ⟨s, hs, _⟩ => absurd hs List.not_mem_nil⟩
  | cons s rest ih =>
    rw [checkLoop_cons, List.mem_append, ih, List.exists_mem_cons_iff]
    apply or_congr_left
    by_cases hf : s.fires now = true
    · rw [if_pos hf, and_iff_right hf]
    · rw [if_neg hf]
      exact ⟨fun h => absurd h List.not_mem_nil, fun h => absurd h.1 hf⟩

/-- The loop touches the schedules it visits, each on its own. -/
theorem checkLoop_get (cron : CronCrate) (now : DateTime) (queue : Int → QueueEnv) :
    ∀ {l : List Schedule} {w : World}, (l.map Schedule.id).Nodup →
      (∀ s ∈ l, w.schedules.get s.id = some s) →
      (∀ s ∈ l, (w.applyAll (checkLoop cron now queue l)).schedules.get s.id =
        some (s.checked cron now (queue s.id))) ∧
      ∀ k, k ∉ l.map Schedule.id →
        (w.applyAll (checkLoop cron now queue l)).schedules.get k = w.schedules.get k
  | [], w, _, _ => ⟨fun s hs => absurd hs List.not_mem_nil, fun k _ => rfl⟩
  | s :: rest, w, hnd, hw => by
    obtain ⟨hs, hnd⟩ := List.nodup_cons.1 hnd
    -- the first schedule, and everybody else, after the first iteration
    let w₁ := w.applyAll (if s.fires now then (queueJob cron (queue s.id) s).1 else [])
    have hfirst : ∀ k, w₁.schedules.get k =
        if k = s.id then some (s.checked cron now (queue s.id)) else w.schedules.get k := by
      intro k
      simp only [w₁, Schedule.checked]
      split
      · exact queueJob_get (hw s List.mem_cons_self) k
      · show w.schedules.get k = _
        split
        · rename_i hk
          rw [hk, hw s List.mem_cons_self]
        · rfl
    have hw₁ : ∀ u ∈ rest, w₁.schedules.get u.id = some u := by
      intro u hu
      have hne : u.id ≠ s.id := fun e => hs (e ▸ List.mem_map_of_mem hu)
      rw [hfirst, if_neg hne]
      exact hw u (List.mem_cons_of_mem _ hu)
    obtain ⟨hin, hout⟩ := checkLoop_get cron now queue hnd hw₁
    rw [checkLoop_cons, World.applyAll_append]
    refine ⟨?_, ?_⟩
    · intro u hu
      rcases List.mem_cons.1 hu with rfl | hu
      · rw [hout u.id hs, hfirst, if_pos rfl]
      · exact hin u hu
    · intro k hk
      rw [List.map_cons, List.mem_cons, not_or] at hk
      rw [hout k hk.2, hfirst, if_neg hk.1]

theorem checkLoop_sends (cron : CronCrate) (now : DateTime) (queue : Int → QueueEnv) :
    ∀ l : List Schedule, (checkLoop cron now queue l).filterMap Effect.sent =
      (l.filter fun s => s.fires now && (queue s.id).sends).map (enqueueOf queue)
  | [] => rfl
  | s :: rest => by
    have ih := checkLoop_sends cron now queue rest
    rw [checkLoop_cons, List.filterMap_append, ih]
    cases hf : s.fires now with
    | false => simp [hf]
    | true =>
      rw [if_pos rfl, queueJob_sends]
      cases hsend : (queue s.id).sends <;> simp [hf, hsend]

/-! ## The whole check -/

theorem World.tick_eq {cron : CronCrate} {w w' : World} {t : Tick} (h : w.tick cron t = some w') :
    t.order.Perm w.schedules.ids ∧ w' = w.applyAll (checkSchedules cron w t) := by
  unfold World.tick at h
  split at h
  · rename_i hp
    cases h
    exact ⟨hp, rfl⟩
  · cases h

theorem World.snapshot_ids {w : World} {order : List Int} (h : order.Perm w.schedules.ids) :
    (w.snapshot order).map Schedule.id = order := by
  have hall : ∀ id ∈ order, ∃ s, w.schedules.get id = some s :=
    fun id hid => ScheduleMap.mem_ids.1 (h.mem_iff.1 hid)
  have hgen : ∀ l : List Int, (∀ id ∈ l, ∃ s, w.schedules.get id = some s) →
      (w.snapshot l).map Schedule.id = l := by
    intro l
    induction l with
    | nil => intro _; rfl
    | cons id l ih =>
      intro hl
      obtain ⟨s, hs⟩ := hl id List.mem_cons_self
      have hrest := ih fun k hk => hl k (List.mem_cons_of_mem _ hk)
      have hid := ScheduleMap.id_eq hs
      unfold World.snapshot at hrest ⊢
      rw [List.filterMap_cons_some hs, List.map_cons, hid, hrest]
  exact hgen order hall

theorem World.mem_snapshot {w : World} {order : List Int} (h : order.Perm w.schedules.ids)
    {s : Schedule} : s ∈ w.snapshot order ↔ w.schedules.get s.id = some s := by
  unfold World.snapshot
  rw [List.mem_filterMap]
  constructor
  · rintro ⟨id, -, hid⟩
    rw [ScheduleMap.id_eq hid]
    exact hid
  · intro hs
    exact ⟨s.id, h.mem_iff.2 (ScheduleMap.mem_ids.2 ⟨s, hs⟩), hs⟩

/-- **A check treats every schedule on its own**: what becomes of it depends on nothing else, and
    on no order. -/
theorem World.tick_get {cron : CronCrate} {w w' : World} {t : Tick}
    (h : w.tick cron t = some w') (id : Int) :
    w'.schedules.get id = (w.schedules.get id).map fun s => s.checked cron t.now (t.queue id) := by
  obtain ⟨hp, rfl⟩ := World.tick_eq h
  have hids := World.snapshot_ids hp
  have hnd : ((w.snapshot t.order).map Schedule.id).Nodup := by
    rw [hids]
    exact hp.nodup_iff.2 w.schedules.ids_nodup
  have hloop := checkLoop_get cron t.now t.queue (w := w) hnd
    fun s hs => (World.mem_snapshot hp).1 hs
  obtain ⟨hin, hout⟩ := hloop
  cases hg : w.schedules.get id with
  | none =>
    rw [Option.map_none, ← hg]
    apply hout
    rw [hids, hp.mem_iff, ScheduleMap.mem_ids]
    rintro ⟨s, hs⟩
    rw [hg] at hs
    cases hs
  | some s =>
    have hid := ScheduleMap.id_eq hg
    subst hid
    exact hin s ((World.mem_snapshot hp).2 hg)

theorem tickSends_eq (cron : CronCrate) (w : World) (t : Tick) : tickSends cron w t =
    ((w.snapshot t.order).filter fun s => s.fires t.now && (t.queue s.id).sends).map
      (enqueueOf t.queue) :=
  checkLoop_sends cron t.now t.queue _

/-- The enqueues in the order of the visit, each from its own schedule. -/
theorem tickSends_eq_filterMap (cron : CronCrate) (w : World) (t : Tick) :
    tickSends cron w t = t.order.filterMap fun id => (w.schedules.get id).bind fun s =>
      if s.fires t.now && (t.queue s.id).sends then some (enqueueOf t.queue s) else none := by
  rw [tickSends_eq]
  unfold World.snapshot
  induction t.order with
  | nil => rfl
  | cons id order ih =>
    cases hs : w.schedules.get id with
    | none => rw [List.filterMap_cons_none hs, ih, List.filterMap_cons_none (by rw [hs]; rfl)]
    | some s =>
      rw [List.filterMap_cons_some hs, List.filterMap_cons, hs, Option.bind_some, ← ih]
      cases hp : s.fires t.now && (t.queue s.id).sends <;> simp [hp]

/-- Who is enqueued by a check. -/
theorem mem_tickSends {cron : CronCrate} {w w' : World} {t : Tick} (h : w.tick cron t = some w')
    {e : Enqueue} : e ∈ tickSends cron w t ↔ ∃ s, w.schedules.get e.scheduleId = some s ∧
      s.fires t.now = true ∧ (t.queue s.id).sends = true ∧ e = enqueueOf t.queue s := by
  have hp := (World.tick_eq h).1
  rw [tickSends_eq, List.mem_map]
  constructor
  · rintro ⟨s, hs, rfl⟩
    rw [List.mem_filter, Bool.and_eq_true] at hs
    exact ⟨s, (World.mem_snapshot hp).1 hs.1, hs.2.1, hs.2.2, rfl⟩
  · rintro ⟨s, hs, hf, hsend, rfl⟩
    refine ⟨s, ?_, rfl⟩
    rw [List.mem_filter, Bool.and_eq_true]
    exact ⟨(World.mem_snapshot hp).2 hs, hf, hsend⟩

/-- Nobody is enqueued twice by one check. -/
theorem tickSends_nodup {cron : CronCrate} {w w' : World} {t : Tick}
    (h : w.tick cron t = some w') : ((tickSends cron w t).map Enqueue.scheduleId).Nodup := by
  have hp := (World.tick_eq h).1
  rw [tickSends_eq, List.map_map]
  have hsub : (((w.snapshot t.order).filter fun s =>
      s.fires t.now && (t.queue s.id).sends).map Schedule.id).Sublist t.order := by
    conv_rhs => rw [← World.snapshot_ids hp]
    exact List.filter_sublist.map _
  exact (hp.nodup_iff.2 w.schedules.ids_nodup).sublist hsub

end RBackup2
