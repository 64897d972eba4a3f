import RBackup2.Scheduler.Firing
import RBackup2.Scheduler.Reload
import RBackup2.Scheduler.Restart

/-!
# A crash in the middle of a check

A check hands a schedule over, writes its row and then its entry in memory.  A process can be cut
off between any two of these steps, and the next one finds the rows as they are, with their times
at the resolution of the column.

* `CutAt` — what a check that is cut off has done to the rows, `exists_cutAt` that it is always
  the work on some schedules and at most one more hand-over.
* `Stored` — every schedule in memory has its next time, rounded, in its own row; loads and checks
  keep it, whatever the clock reads, if there is one schedule to a job.
* `Recovered` — what the next process finds; `recovered_of_cut` that it does.
* `crash_forgets_no_schedule` — one schedule at most is handed over again, and none is forgotten.
-/

set_option autoImplicit false

namespace RBackup2

open Transition

theorem World.applyAll_jobs (es : List Effect) : ∀ w : World, (w.applyAll es).jobs = w.jobs := by
  induction es with
  | nil => intro w; rfl
  | cons e es ih =>
    intro w
    show ((w.apply e).applyAll es).jobs = w.jobs
    rw [ih]
    cases e <;> rfl

/-- The UPDATE for the schedules of the job is among the effects. -/
def Updated (es : List Effect) (jobId : Uuid) : Prop :=
  ∃ last next, Effect.updateRows jobId last next ∈ es

/-! ## The cut -/

/-- **A check of some schedules, cut off after the effects**: the rows are as if it was done with
    the first `k` of them, and it has handed over those and the next one at most. -/
structure CutAt (cron : CronCrate) (now : DateTime) (queue : Int → QueueEnv) (l : List Schedule)
    (es : List Effect) (k : Nat) : Prop where
  rows : ∀ w : World,
    (w.applyAll es).rows = (w.applyAll (checkLoop cron now queue (l.take k))).rows
  updates : ∀ jobId last next, Effect.updateRows jobId last next ∈ es ↔
    Effect.updateRows jobId last next ∈ checkLoop cron now queue (l.take k)
  sends : ∃ again, again.length ≤ 1 ∧ es.filterMap Effect.sent =
    (checkLoop cron now queue (l.take k)).filterMap Effect.sent ++ again

/-- Before its first effect a check is done with nobody. -/
theorem CutAt.start {cron : CronCrate} {now : DateTime} {queue : Int → QueueEnv}
    {l : List Schedule} : CutAt cron now queue l [] 0 where
  rows _ := rfl
  updates _ _ _ := Iff.rfl
  sends := ⟨[], Nat.zero_le 1, rfl⟩

/-- A schedule that does not fire is passed over. -/
theorem CutAt.pass {cron : CronCrate} {now : DateTime} {queue : Int → QueueEnv}
    {l : List Schedule} {es : List Effect} {k : Nat} (h : CutAt cron now queue l es k)
    {s : Schedule} (hf : ¬ s.fires now = true) : CutAt cron now queue (s :: l) es (k + 1) := by
  have heq : checkLoop cron now queue ((s :: l).take (k + 1)) =
      checkLoop cron now queue (l.take k) := by
    rw [List.take_succ_cons, checkLoop_cons, if_neg hf, List.nil_append]
  constructor
  · rw [heq]
    exact h.rows
  · rw [heq]
    exact h.updates
  · rw [heq]
    exact h.sends

/-- A schedule that fires is done with when its three effects are there. -/
theorem CutAt.queued {cron : CronCrate} {now : DateTime} {queue : Int → QueueEnv}
    {l : List Schedule} {es : List Effect} {k : Nat} (h : CutAt cron now queue l es k)
    {s : Schedule} (hf : s.fires now = true) :
    CutAt cron now queue (s :: l) ((queueJob cron (queue s.id) s).1 ++ es) (k + 1) := by
  have heq : checkLoop cron now queue ((s :: l).take (k + 1)) =
      (queueJob cron (queue s.id) s).1 ++ checkLoop cron now queue (l.take k) := by
    rw [List.take_succ_cons, checkLoop_cons, if_pos hf]
  constructor
  · intro w
    rw [heq, World.applyAll_append, World.applyAll_append]
    exact h.rows _
  · intro jobId last next
    rw [heq, List.mem_append, List.mem_append, h.updates]
  · obtain ⟨again, hlen, hsent⟩ := h.sends
    refine ⟨again, hlen, ?_⟩
    rw [heq, List.filterMap_append, List.filterMap_append, hsent, List.append_assoc]

/-- **Wherever a check is cut off**, it is cut at one of its schedules: between the hand-over and
    the UPDATE the schedule is not done with, after the UPDATE it is. -/
theorem exists_cutAt {cron : CronCrate} {now : DateTime} {queue : Int → QueueEnv} :
    ∀ {l : List Schedule}, (∀ s ∈ l, s.fires now = true → (queue s.id).Succeeds cron s) →
      ∀ n, ∃ k, CutAt cron now queue l ((checkLoop cron now queue l).take n) k
  | [], _, n => by
    rw [checkLoop, List.take_nil]
    exact ⟨0, .start⟩
  | s :: rest, hok, n => by
    obtain ⟨hs, hrest⟩ := List.forall_mem_cons.1 hok
    rw [checkLoop_cons]
    by_cases hf : s.fires now = true
    · obtain ⟨next, -, heff⟩ := queueJob_ok (hs hf)
      rw [if_pos hf]
      rcases n with _ | _ | _ | n
      · exact ⟨0, .start⟩
      · -- handed over, and not written
        rw [heff]
        refine ⟨0, fun w => rfl, fun jobId last next => ?_, [_], Nat.le_refl 1, rfl⟩
        simp [checkLoop]
      · -- written, but not in memory
        have hdone : checkLoop cron now queue ((s :: rest).take 1) =
            (queueJob cron (queue s.id) s).1 := by
          rw [List.take_succ_cons, checkLoop_cons, if_pos hf, List.take_zero]
          simp [checkLoop]
        refine ⟨1, fun w => ?_, fun jobId last next => ?_, [], Nat.zero_le 1, ?_⟩
        · rw [hdone, heff]
          rfl
        · rw [hdone, heff]
          simp
        · rw [hdone, heff]
          rfl
      · obtain ⟨k, hk⟩ := exists_cutAt hrest n
        have htake :
            ((queueJob cron (queue s.id) s).1 ++ checkLoop cron now queue rest).take (n + 3) =
              (queueJob cron (queue s.id) s).1 ++ (checkLoop cron now queue rest).take n := by
          rw [heff]
          rfl
        rw [htake]
        exact ⟨k + 1, hk.queued hf⟩
    · obtain ⟨k, hk⟩ := exists_cutAt hrest n
      rw [if_neg hf, List.nil_append]
      exact ⟨k + 1, hk.pass hf⟩

/-- Whoever it is done with, and fires, has its UPDATE. -/
theorem CutAt.updated {cron : CronCrate} {now : DateTime} {queue : Int → QueueEnv}
    {l : List Schedule} {es : List Effect} {k : Nat} (h : CutAt cron now queue l es k)
    {u : Schedule} (hu : u ∈ l.take k) (hf : u.fires now = true)
    (hok : (queue u.id).Succeeds cron u) : Updated es u.jobId := by
  obtain ⟨next, -, heff⟩ := queueJob_ok hok
  refine ⟨(queue u.id).now, some next, (h.updates _ _ _).2 (mem_checkLoop.2 ⟨u, hu, hf, ?_⟩)⟩
  rw [heff]
  exact List.mem_cons_of_mem _ List.mem_cons_self

/-! ## What the rows keep -/

/-- **Every next time is in the table**, as the column keeps it; and there is one schedule to a
    job. -/
structure Stored (deviceId : String) (w : World) : Prop where
  ids_nodup : ((w.deviceRows deviceId).map Schedule.id).Nodup
  jobs_nodup : ((w.deviceRows deviceId).map Schedule.jobId).Nodup
  same : ∀ id s, w.schedules.get id = some s → ∃ row ∈ w.deviceRows deviceId, row.id = id ∧
    s.SameDefinition row ∧ row.nextRunAt = s.nextRunAt.map timestamptz ∧ s.nextRunAt.isSome

theorem deviceRows_jobs (w : World) (deviceId : String) :
    (w.deviceRows deviceId).map Schedule.jobId = (w.deviceKeys deviceId).map Prod.snd := by
  unfold World.deviceKeys
  rw [List.map_map]
  rfl

theorem Stored.alone {deviceId : String} {w : World} (h : Stored deviceId w) {row : Schedule}
    (hrow : row ∈ w.deviceRows deviceId) : Alone deviceId w row := by
  intro r hr hjob
  rw [List.inj_on_of_nodup_map h.jobs_nodup hr hrow hjob]

/-- What the scheduler does keeps the keys, so only the times are to be seen to. -/
theorem Stored.keep {deviceId : String} {w : World} (h : Stored deviceId w) (es : List Effect)
    (hsame : ∀ id s, (w.applyAll es).schedules.get id = some s →
      ∃ row ∈ (w.applyAll es).deviceRows deviceId, row.id = id ∧ s.SameDefinition row ∧
        row.nextRunAt = s.nextRunAt.map timestamptz ∧ s.nextRunAt.isSome) :
    Stored deviceId (w.applyAll es) := by
  have hids := h.ids_nodup
  have hjobs := h.jobs_nodup
  rw [deviceRows_ids, ← w.applyAll_deviceKeys deviceId es, ← deviceRows_ids] at hids
  rw [deviceRows_jobs, ← w.applyAll_deviceKeys deviceId es, ← deviceRows_jobs] at hjobs
  exact ⟨hids, hjobs, hsame⟩

/-- An UPDATE together with a write to the map. -/
theorem Stored.move {deviceId : String} {w : World} (h : Stored deviceId w) {row s : Schedule}
    (hrow : row ∈ w.deviceRows deviceId) (hdef : row.SameDefinition s) {next : DateTime}
    (hnext : s.nextRunAt = some next) (last : DateTime) :
    Stored deviceId (w.applyAll [.updateRows row.jobId last (some next), .insert s]) := by
  obtain ⟨hself, hother⟩ := mem_deviceRows_update hrow (h.alone hrow) last (some next)
  refine h.keep _ fun id u hu => ?_
  change (w.schedules.insert s).get id = some u at hu
  rw [ScheduleMap.get_insert] at hu
  split at hu
  · rename_i hid
    cases hu
    refine ⟨_, hself, ?_, hdef.symm.trans (.setTimes row _ _), ?_, ?_⟩
    · rw [hid, hdef.id]
    · rw [hnext]
    · rw [hnext]; rfl
  · rename_i hid
    obtain ⟨r, hr, hrid, hrest⟩ := h.same id u hu
    exact ⟨r, hother r hr (by rw [hrid, ← hdef.id]; exact hid), hrid, hrest⟩

/-- One iteration of a load. -/
theorem Stored.loadOne {cron : CronCrate} {deviceId : String} {env : ReloadEnv} {w : World}
    (h : Stored deviceId w) {s : Schedule} (hs : s ∈ w.deviceRows deviceId)
    (hload : Loadable cron env s) (hupd : env.update s.id = .done)
    (hmicro : ∀ t, s.nextRunAt = some t → WholeMicros t) :
    Stored deviceId (w.applyAll (loadEffects cron env s)) ∧
      ∀ r ∈ w.deviceRows deviceId, r.id ≠ s.id →
        r ∈ (w.applyAll (loadEffects cron env s)).deviceRows deviceId := by
  cases hnext : s.nextRunAt with
  | some next =>
    have heff : loadEffects cron env s = [.insert s] := by
      simp [loadEffects, Schedule.loaded, hnext]
    rw [heff]
    refine ⟨h.keep _ fun id u hu => ?_, fun r hr _ => hr⟩
    change (w.schedules.insert s).get id = some u at hu
    rw [ScheduleMap.get_insert] at hu
    split at hu
    · rename_i hid
      cases hu
      refine ⟨s, hs, hid.symm, .refl s, ?_, by rw [hnext]; rfl⟩
      rw [hnext, Option.map_some, timestamptz_eq_self (hmicro next hnext)]
    · exact h.same id u hu
  | none =>
    rcases hload with hload | ⟨next, hcalc⟩
    · rw [hnext] at hload
      cases hload
    · have heff : loadEffects cron env s =
          [.updateRows s.jobId (s.lastRunAt.getD (env.now s.id)) (some next),
            .insert { s with nextRunAt := some next }] := by
        simp [loadEffects, Schedule.loaded, updateEffect, DbOutcome.applied, hnext, hcalc, hupd]
      rw [heff]
      refine ⟨?_, (mem_deviceRows_update hs (h.alone hs) _ _).2⟩
      exact h.move (s := { s with nextRunAt := some next }) hs
        (.setTimes s s.lastRunAt (some next)) rfl _

theorem Stored.loadAll {cron : CronCrate} {deviceId : String} {env : ReloadEnv}
    (hupd : ∀ id, env.update id = .done) : ∀ {l : List Schedule} {w : World}, Stored deviceId w →
      (l.map Schedule.id).Nodup → (∀ s ∈ l, s ∈ w.deviceRows deviceId) →
      (∀ s ∈ l, Loadable cron env s) → (∀ s ∈ l, ∀ t, s.nextRunAt = some t → WholeMicros t) →
      Stored deviceId (w.applyAll (reloadLoop cron env l).1)
  | [], _, h, _, _, _, _ => h
  | s :: rest, w, h, hnd, hmem, hload, hmicro => by
    obtain ⟨hs, hnd⟩ := List.nodup_cons.1 hnd
    obtain ⟨hfirst, hrest⟩ := List.forall_mem_cons.1 hload
    obtain ⟨hstep, hkeep⟩ := h.loadOne (hmem s List.mem_cons_self) hfirst (hupd s.id)
      (hmicro s List.mem_cons_self)
    rw [(reloadLoop_cons cron env s rest).1 hfirst]
    simp only [World.applyAll_append]
    refine Stored.loadAll hupd hstep hnd ?_ hrest
      fun u hu => hmicro u (List.mem_cons_of_mem _ hu)
    intro u hu
    refine hkeep u (hmem u (List.mem_cons_of_mem _ hu)) fun e => hs ?_
    rw [← e]
    exact List.mem_map_of_mem hu

/-- **A load** stores what it computes. -/
theorem Stored.ofReload {cron : CronCrate} {deviceId : String} {env : ReloadEnv} {w : World}
    (hadm : SchedulesAdmitted w.rows) (hsel : env.select = .ok ())
    (hone : ((w.deviceRows deviceId).map Schedule.jobId).Nodup)
    (hupd : ∀ id, env.update id = .done) (hok : (w.reload cron deviceId env).2 = .ok ()) :
    Stored deviceId (w.reload cron deviceId env).1 := by
  have hnd := getSchedulesForDevice_ids w.jobs hadm deviceId
  have hempty : Stored deviceId { w with schedules := .empty } :=
    ⟨hnd, hone, fun id s hs => by rw [ScheduleMap.get_empty] at hs; cases hs⟩
  have hload := (World.reload_ok_iff hsel).1 hok
  unfold World.reload reloadSchedules
  rw [hsel]
  refine hempty.loadAll hupd hnd (fun s hs => hs) hload ?_
  intro s hs t ht
  exact hadm.resolution s (List.mem_filter.1 hs).1 t (.inr ht)

/-- One call of `queue_job`, if the client is told what became of its UPDATE. -/
theorem Stored.queueOne {cron : CronCrate} {deviceId : String} {w : World}
    (h : Stored deviceId w) {s : Schedule} (hs : w.schedules.get s.id = some s) {env : QueueEnv}
    (htold : ∀ err, env.update ≠ .lost err) :
    Stored deviceId (w.applyAll (queueJob cron env s).1) := by
  rcases queueJob_cases cron env s with ⟨-, heff⟩ | ⟨-, -, heff⟩ | ⟨-, hne, next, -, heff⟩ |
    ⟨-, next, -, heff⟩
  · rw [heff]
    exact h
  · rw [heff]
    exact h
  · rw [heff]
    cases hupd : env.update with
    | done => exact absurd hupd hne
    | failed err => exact h
    | lost err => exact absurd hupd (htold err)
  · obtain ⟨row, hrow, -, hdef, -, -⟩ := h.same s.id s hs
    have hmove := h.move (s := { s with lastRunAt := some env.now, nextRunAt := some next }) hrow
      (hdef.symm.trans (.setTimes s _ _)) rfl env.now
    rw [hdef.jobId] at hmove
    rw [heff]
    show Stored deviceId ⟨w.jobs, updateScheduleLastRun s.jobId env.now (some next) w.rows,
      w.schedules.advance s.id env.now next⟩
    rw [ScheduleMap.advance_eq hs]
    exact hmove

theorem Stored.queueAll {cron : CronCrate} {deviceId : String} {now : DateTime}
    {queue : Int → QueueEnv} : ∀ {l : List Schedule} {w : World}, Stored deviceId w →
      (l.map Schedule.id).Nodup → (∀ s ∈ l, w.schedules.get s.id = some s) →
      (∀ s ∈ l, s.fires now = true → ∀ err, (queue s.id).update ≠ .lost err) →
      Stored deviceId (w.applyAll (checkLoop cron now queue l))
  | [], _, h, _, _, _ => h
  | s :: rest, w, h, hnd, hget, htold => by
    obtain ⟨hs, hnd⟩ := List.nodup_cons.1 hnd
    rw [checkLoop_cons, World.applyAll_append]
    by_cases hf : s.fires now = true
    · rw [if_pos hf]
      refine Stored.queueAll
        (h.queueOne (hget s List.mem_cons_self) (htold s List.mem_cons_self hf)) hnd ?_
        fun u hu => htold u (List.mem_cons_of_mem _ hu)
      intro u hu
      have hne : u.id ≠ s.id := fun e => hs (e ▸ List.mem_map_of_mem hu)
      rw [queueJob_get (hget s List.mem_cons_self), if_neg hne]
      exact hget u (List.mem_cons_of_mem _ hu)
    · rw [if_neg hf]
      exact h.queueAll hnd (fun u hu => hget u (List.mem_cons_of_mem _ hu))
        fun u hu => htold u (List.mem_cons_of_mem _ hu)

/-- The client is told what becomes of its UPDATEs in the check. -/
def Tick.Told (t : Tick) : Prop := ∀ id err, (t.queue id).update ≠ .lost err

theorem Stored.tick {cron : CronCrate} {deviceId : String} {w w' : World} {t : Tick}
    (h : Stored deviceId w) (htold : t.Told) (ht : w.tick cron t = some w') :
    Stored deviceId w' := by
  obtain ⟨hp, rfl⟩ := World.tick_eq ht
  refine h.queueAll ?_ (fun s hs => (World.mem_snapshot hp).1 hs) fun s _ _ => htold s.id
  rw [World.snapshot_ids hp]
  exact hp.nodup_iff.2 w.schedules.ids_nodup

/-! ## What the next process finds -/

/-- **A load of what is stored**, in whatever order: every schedule waits for its time as the
    column keeps it. -/
theorem Stored.restart (cron : CronCrate) {deviceId : String} {m : World} (h : Stored deviceId m)
    (hall : Covers deviceId m) {rows : List Schedule} (hperm : rows.Perm m.rows) {env : ReloadEnv}
    (hsel : env.select = .ok ()) :
    let v := (⟨m.jobs, rows, .empty⟩ : World).reload cron deviceId env
    v.2 = .ok () ∧ ∀ id, (m.schedules.get id = none ∧ v.1.schedules.get id = none) ∨
      ∃ s s', m.schedules.get id = some s ∧ v.1.schedules.get id = some s' ∧
        s.SameDefinition s' ∧ s'.nextRunAt = s.nextRunAt.map timestamptz := by
  let v₀ : World := ⟨m.jobs, rows, .empty⟩
  have hrows : (v₀.deviceRows deviceId).Perm (m.deviceRows deviceId) := hperm.filter _
  have hnd : ((v₀.deviceRows deviceId).map Schedule.id).Nodup :=
    (hrows.map Schedule.id).nodup_iff.2 h.ids_nodup
  -- every row is in memory, so it has a next time and is taken as it is
  have hrow : ∀ row ∈ v₀.deviceRows deviceId, ∃ s, m.schedules.get row.id = some s ∧
      s.SameDefinition row ∧ row.nextRunAt = s.nextRunAt.map timestamptz ∧
        row.nextRunAt.isSome := by
    intro row hr
    have hr' := hrows.mem_iff.1 hr
    have hkey : (row.id, row.jobId) ∈ m.deviceKeys deviceId := List.mem_map_of_mem hr'
    obtain ⟨s, hs⟩ := hall _ hkey
    obtain ⟨r, hrr, hid, hdef, hnext, hsome⟩ := h.same row.id s hs
    have heq : r = row := List.inj_on_of_nodup_map h.ids_nodup hrr hr' hid
    subst heq
    refine ⟨s, hs, hdef, hnext, ?_⟩
    rw [hnext, Option.isSome_map]
    exact hsome
  have hok : (v₀.reload cron deviceId env).2 = .ok () := by
    refine (World.reload_ok_iff hsel).2 fun s hs => ?_
    obtain ⟨-, -, -, -, hsome⟩ := hrow s hs
    exact .inl hsome
  obtain ⟨hin, hout⟩ := World.reload_get hsel hnd hok
  refine ⟨hok, fun id => ?_⟩
  by_cases hid : id ∈ (v₀.deviceRows deviceId).map Schedule.id
  · obtain ⟨row, hr, rfl⟩ := List.mem_map.1 hid
    obtain ⟨s, hs, hdef, hnext, hsome⟩ := hrow row hr
    obtain ⟨next, hstored⟩ := Option.isSome_iff_exists.1 hsome
    have hload := hin row hr
    rw [loaded_of_stored hstored] at hload
    exact .inr ⟨s, row, hs, hload, hdef, hnext⟩
  · refine .inl ⟨?_, hout id hid⟩
    cases hs : m.schedules.get id with
    | none => rfl
    | some s =>
      obtain ⟨row, hr, hrid, -⟩ := h.same id s hs
      exact absurd (hrid ▸ List.mem_map_of_mem (hrows.mem_iff.2 hr)) hid

/-- **What a restart after a cut finds**: whose UPDATE took effect waits for the time it wrote, and
    everybody else waits as before, both as the column keeps it. -/
structure Recovered (es : List Effect) (w v : World) : Prop where
  moved : ∀ id s last next, w.schedules.get id = some s →
    .updateRows s.jobId last (some next) ∈ es → ∃ s', v.schedules.get id = some s' ∧
      s.SameDefinition s' ∧ s'.nextRunAt = some (timestamptz next)
  kept : ∀ id s, w.schedules.get id = some s → ¬ Updated es s.jobId →
    ∃ s', v.schedules.get id = some s' ∧ s.SameDefinition s' ∧
      s'.nextRunAt = s.nextRunAt.map timestamptz
  others : ∀ id, w.schedules.get id = none → v.schedules.get id = none

section Cut

variable {cron : CronCrate} {deviceId : String} {w : World} {t : Tick} {es : List Effect} {k : Nat}
  (horder : t.order.Perm w.schedules.ids)

include horder

theorem mem_take_snapshot {s : Schedule} (hs : s ∈ (w.snapshot t.order).take k) :
    w.schedules.get s.id = some s :=
  (World.mem_snapshot horder).1 (List.mem_of_mem_take hs)

theorem take_snapshot_nodup : (((w.snapshot t.order).take k).map Schedule.id).Nodup := by
  have hnd : ((w.snapshot t.order).map Schedule.id).Nodup := by
    rw [World.snapshot_ids horder]
    exact horder.nodup_iff.2 w.schedules.ids_nodup
  exact hnd.sublist ((List.take_sublist k _).map _)

theorem Covers.take (h : Covers deviceId w) :
    Covers deviceId (w.applyAll (checkLoop cron t.now t.queue ((w.snapshot t.order).take k))) := by
  obtain ⟨hin, hout⟩ := checkLoop_get cron t.now t.queue (take_snapshot_nodup (k := k) horder)
    fun _ hs => mem_take_snapshot horder hs
  intro key hkey
  rw [World.applyAll_deviceKeys] at hkey
  obtain ⟨s, hs⟩ := h key hkey
  by_cases hid : key.1 ∈ ((w.snapshot t.order).take k).map Schedule.id
  · obtain ⟨u, hu, heq⟩ := List.mem_map.1 hid
    rw [← heq]
    exact ⟨_, hin u hu⟩
  · exact ⟨s, (hout _ hid).trans hs⟩

/-- A schedule whose UPDATE is there has moved to the time of the UPDATE. -/
theorem moved_of_cut (h : Stored deviceId w) (hok : t.Succeeds cron w)
    (hcut : CutAt cron t.now t.queue (w.snapshot t.order) es k) {id : Int} {s : Schedule}
    {last next : DateTime} (hs : w.schedules.get id = some s)
    (hupd : .updateRows s.jobId last (some next) ∈ es) :
    (w.applyAll (checkLoop cron t.now t.queue ((w.snapshot t.order).take k))).schedules.get id =
      some { s with lastRunAt := some last, nextRunAt := some next } := by
  rw [hcut.updates, mem_checkLoop] at hupd
  obtain ⟨u, hu, hf, heff⟩ := hupd
  have hget := mem_take_snapshot horder hu
  obtain ⟨hjob, hlast, hnext⟩ : s.jobId = u.jobId ∧ last = (t.queue u.id).now ∧
      calculateNextRun cron u (some last) last = .ok next := by
    rcases queueJob_effects heff with heq | ⟨next', hcalc, heq | heq⟩
    · cases heq
    · rw [Effect.updateRows.injEq, Option.some.injEq] at heq
      obtain ⟨hjob, rfl, rfl⟩ := heq
      exact ⟨hjob, rfl, hcalc⟩
    · cases heq
  -- no other schedule of the device is for the job
  obtain ⟨row, hrow, hid, hdef, -⟩ := h.same id s hs
  obtain ⟨row', hrow', hid', hdef', -⟩ := h.same u.id u hget
  have hsame : row.id = row'.id := by
    apply h.alone hrow' row hrow
    rw [hdef.jobId, hdef'.jobId]
    exact hjob
  have hidu : id = u.id := hid.symm.trans (hsame.trans hid')
  subst hidu
  cases hs.symm.trans hget
  subst hlast
  obtain ⟨hin, -⟩ := checkLoop_get cron t.now t.queue (take_snapshot_nodup (k := k) horder)
    fun _ hs => mem_take_snapshot horder hs
  rw [hin s hu, Schedule.checked, if_pos hf,
    Schedule.queued_of_succeeds (hok s.id s hget hf) hnext]

/-- A schedule without an UPDATE is as it was, and no other is there. -/
theorem kept_of_cut (hok : t.Succeeds cron w)
    (hcut : CutAt cron t.now t.queue (w.snapshot t.order) es k) {id : Int}
    (hnot : ∀ s, w.schedules.get id = some s → ¬ Updated es s.jobId) :
    (w.applyAll (checkLoop cron t.now t.queue ((w.snapshot t.order).take k))).schedules.get id =
      w.schedules.get id := by
  obtain ⟨hin, hout⟩ := checkLoop_get cron t.now t.queue (take_snapshot_nodup (k := k) horder)
    fun _ hs => mem_take_snapshot horder hs
  by_cases hid : id ∈ ((w.snapshot t.order).take k).map Schedule.id
  · obtain ⟨u, hu, rfl⟩ := List.mem_map.1 hid
    have hget := mem_take_snapshot horder hu
    -- if it fired, its UPDATE would be there
    have hf : ¬ u.fires t.now = true := fun hf =>
      hnot u hget (hcut.updated hu hf (hok u.id u hget hf))
    rw [hin u hu, Schedule.checked, if_neg hf, hget]
  · exact hout id hid

/-- **The cut is at one of the schedules**, so the next process finds all of them. -/
theorem recovered_of_cut (h : Stored deviceId w) (hall : Covers deviceId w)
    (hok : t.Succeeds cron w) (hcut : CutAt cron t.now t.queue (w.snapshot t.order) es k)
    {rows : List Schedule} (hperm : rows.Perm (w.applyAll es).rows) {env : ReloadEnv}
    (hsel : env.select = .ok ()) :
    let v := (⟨w.jobs, rows, .empty⟩ : World).reload cron deviceId env
    v.2 = .ok () ∧ Recovered es w v.1 := by
  have hstored : Stored deviceId
      (w.applyAll (checkLoop cron t.now t.queue ((w.snapshot t.order).take k))) := by
    refine h.queueAll (take_snapshot_nodup horder) (fun _ hs => mem_take_snapshot horder hs) ?_
    intro s hs hf err
    rw [(hok s.id s (mem_take_snapshot horder hs) hf).2.2]
    exact DbOutcome.noConfusion
  obtain ⟨hload, hsame⟩ := hstored.restart cron (hall.take horder) (hcut.rows w ▸ hperm) hsel
  rw [World.applyAll_jobs] at hload hsame
  refine ⟨hload, ?_, ?_, ?_⟩
  · intro id s last next hs hupd
    have hm := moved_of_cut horder h hok hcut hs hupd
    rcases hsame id with ⟨hnone, -⟩ | ⟨u, u', hu, hu', hdef, hnext⟩
    · rw [hm] at hnone
      cases hnone
    · cases hm.symm.trans hu
      exact ⟨u', hu', (Schedule.SameDefinition.setTimes s _ _).trans hdef, hnext⟩
  · intro id s hs hnot
    have hm := kept_of_cut horder hok hcut fun u hu => (by cases hs.symm.trans hu; exact hnot)
    rcases hsame id with ⟨hnone, -⟩ | ⟨u, u', hu, hu', hdef, hnext⟩
    · rw [hm, hs] at hnone
      cases hnone
    · cases (hm.trans hs).symm.trans hu
      exact ⟨u', hu', hdef, hnext⟩
  · intro id hnone
    have hm := kept_of_cut horder hok hcut fun u hu => (by rw [hnone] at hu; cases hu)
    rcases hsame id with ⟨-, hv⟩ | ⟨u, u', hu, -, -⟩
    · exact hv
    · rw [hm, hnone] at hu
      cases hu

/-- Two schedules that were handed over and have no UPDATE are one: the cut fell on it. -/
theorem handed_over_again (hok : t.Succeeds cron w)
    (hcut : CutAt cron t.now t.queue (w.snapshot t.order) es k) {e e' : Enqueue}
    (he : e ∈ es.filterMap Effect.sent) (he' : e' ∈ es.filterMap Effect.sent)
    (hupd : ¬ Updated es e.execution.jobId) (hupd' : ¬ Updated es e'.execution.jobId) :
    e = e' := by
  obtain ⟨again, hlen, hsent⟩ := hcut.sends
  have hagain : ∀ e ∈ es.filterMap Effect.sent, ¬ Updated es e.execution.jobId → e ∈ again := by
    intro e he hupd
    rw [hsent, checkLoop_sends, List.mem_append] at he
    refine he.resolve_left fun he => hupd ?_
    obtain ⟨u, hu, rfl⟩ := List.mem_map.1 he
    obtain ⟨hu, hcond⟩ := List.mem_filter.1 hu
    have hf := (Bool.and_eq_true_iff.1 hcond).1
    exact hcut.updated hu hf (hok u.id u (mem_take_snapshot horder hu) hf)
  have hmem := hagain e he hupd
  have hmem' := hagain e' he' hupd'
  match again, hlen, hmem, hmem' with
  | [a], _, hmem, hmem' => rw [List.mem_singleton.1 hmem, List.mem_singleton.1 hmem']

end Cut

/-! ## The restart -/

/-- Who is due and has no UPDATE is still due for the next process, if its clock reads no earlier
    than the check that was cut off, as the column rounds. -/
theorem Recovered.fires {es : List Effect} {w v : World} (h : Recovered es w v) {id : Int}
    {s : Schedule} (hs : w.schedules.get id = some s) (hnot : ¬ Updated es s.jobId)
    {now later : DateTime} (hf : s.fires now = true) (hle : timestamptz now ≤ later) :
    ∃ s', v.schedules.get id = some s' ∧ s'.fires later = true := by
  obtain ⟨s', hs', hdef, hnext⟩ := h.kept id s hs hnot
  refine ⟨s', hs', ?_⟩
  unfold Schedule.fires isDue at hf ⊢
  rw [Bool.and_eq_true] at hf ⊢
  obtain ⟨hen, hdue⟩ := hf
  refine ⟨hdef.enabled.trans hen, ?_⟩
  rw [hnext]
  cases hstored : s.nextRunAt with
  | none => rfl
  | some next =>
    simp only [hstored, Option.map_some, decide_eq_true_eq] at hdue ⊢
    exact Int.le_trans (timestamptz_mono hdue) hle

/-- **A crash forgets no schedule.**  One schedule to a job.  After a load, whose UPDATEs succeed,
    and any number of checks that are told what becomes of theirs, a check whose calls succeed is
    cut off after any number of its effects.  One schedule at most has then been handed over
    without its UPDATE.  Loaded again, in whatever order, the schedules that have their UPDATE wait
    for the time it wrote and all others as before; so whoever was due and has no UPDATE is handed
    over by the next check. -/
theorem crash_forgets_no_schedule (cron : CronCrate) (deviceId : String) (w₀ : World)
    (hadm : SchedulesAdmitted w₀.rows)
    (hone : ((w₀.deviceRows deviceId).map Schedule.jobId).Nodup) (env : ReloadEnv)
    (hsel : env.select = .ok ()) (hupd : ∀ id, env.update id = .done)
    (hload : (w₀.reload cron deviceId env).2 = .ok ()) (ticks : List Tick)
    (htold : ∀ t ∈ ticks, t.Told) (w : World)
    (h : exec (World.tick cron) (w₀.reload cron deviceId env).1 ticks = some w) (t : Tick)
    (horder : t.order.Perm w.schedules.ids) (hok : t.Succeeds cron w) (n : Nat) :
    let es := (checkSchedules cron w t).take n
    (∀ e ∈ es.filterMap Effect.sent, ∀ e' ∈ es.filterMap Effect.sent,
      ¬ Updated es e.execution.jobId → ¬ Updated es e'.execution.jobId → e = e') ∧
    ∀ rows env', rows.Perm (w.applyAll es).rows → env'.select = .ok () →
      let v := (⟨w.jobs, rows, .empty⟩ : World).reload cron deviceId env'
      v.2 = .ok () ∧ Recovered es w v.1 ∧
      ∀ t' v', v.1.tick cron t' = some v' → timestamptz t.now ≤ t'.now →
        (∀ id, (t'.queue id).sends = true) → ∀ id s, w.schedules.get id = some s →
          s.fires t.now = true → ¬ Updated es s.jobId →
            id ∈ (tickSends cron v.1 t').map Enqueue.scheduleId := by
  intro es
  have hstored : Stored deviceId w := by
    refine exec_along (I := Stored deviceId) (G := fun _ t => t.Told)
      (fun _ _ _ hs hg ht => hs.tick hg ht) (.ofReload hadm hsel hone hupd hload) ?_ h
    exact along_of_forall (fun t ht _ => htold t ht) _
  have hall : Covers deviceId w :=
    exec_invariant (fun _ _ _ hs ht => hs.tick ht) (Covers.reload hadm hsel hload) h
  have hcalls : ∀ s ∈ w.snapshot t.order, s.fires t.now = true → (t.queue s.id).Succeeds cron s :=
    fun s hs => hok s.id s ((World.mem_snapshot horder).1 hs)
  obtain ⟨k, hcut⟩ := exists_cutAt hcalls n
  refine ⟨fun e he e' he' => handed_over_again horder hok hcut he he', ?_⟩
  intro rows env' hperm hsel'
  obtain ⟨hload', hrecovered⟩ := recovered_of_cut horder hstored hall hok hcut hperm hsel'
  refine ⟨hload', hrecovered, fun t' v' ht' hle hsends id s hs hf hnot => ?_⟩
  obtain ⟨s', hs', hf'⟩ := hrecovered.fires hs hnot hf hle
  have hid := ScheduleMap.id_eq hs'
  subst hid
  exact List.mem_map.2 ⟨enqueueOf t'.queue s',
    (mem_tickSends ht').2 ⟨s', hs', hf', hsends s'.id, rfl⟩, rfl⟩

/-- Two hourly schedules, both due.  The process dies when the second is handed over; the next
    one, half a minute later, hands over the second again and not the first. -/
theorem crash_forgets_no_schedule_two :
    let t₀ := seconds 1735689600
    let w₀ : World := ⟨[.plain 1 "blade", .plain 2 "blade"],
      [.every 3600 1 1 (some t₀), .every 3600 2 2 (some t₀)], .empty⟩
    let w := (w₀.reload .everyMinute "blade" (.succeeding t₀)).1
    let checkAt := fun n =>
      (⟨t₀ + seconds n + 1, [1, 2], fun _ => .succeeding (t₀ + seconds n + 5)⟩ : Tick)
    let es := (checkSchedules .everyMinute w (checkAt 60)).take 4
    let v := ((⟨w.jobs, (w.applyAll es).rows, .empty⟩ : World).reload .everyMinute "blade"
      (.succeeding (t₀ + seconds 80))).1
    (es.filterMap Effect.sent).map Enqueue.scheduleId = [1, 2] ∧
      (tickSends .everyMinute v (checkAt 90)).map Enqueue.scheduleId = [2] ∧
      2 ∈ (tickSends .everyMinute v (checkAt 90)).map Enqueue.scheduleId := by
  intro t₀ w₀ w checkAt es v
  have hadm : SchedulesAdmitted w₀.rows := .ofRows (by decide)
  have hget : ∀ id s, w.schedules.get id = some s →
      s = .every 3600 1 1 (some t₀) ∨ s = .every 3600 2 2 (some t₀) := by
    intro id s hs
    rcases ScheduleMap.get_insert_cases hs with rfl | hs
    · exact .inr rfl
    · rcases ScheduleMap.get_insert_cases hs with rfl | hs
      · exact .inl rfl
      · change ScheduleMap.empty.get id = some s at hs
        rw [ScheduleMap.get_empty] at hs
        cases hs
  have hints : Intervals w := by
    intro id s hs
    rcases hget id s hs with rfl | rfl <;> exact ⟨rfl, 3600, rfl, by decide⟩
  have hok : (checkAt 60).Succeeds .everyMinute w := hints.succeeds fun id => ⟨_, rfl⟩
  have hnot : ¬ Updated es 2 := by
    have hjobs : ∀ e ∈ es, (match e with
        | .updateRows jobId _ _ => decide (jobId ≠ 2)
        | _ => true) = true := List.all_eq_true.1 (by decide)
    rintro ⟨last, next, hmem⟩
    cases hjobs _ hmem
  have htwo : w.schedules.get 2 = some (.every 3600 2 2 (some t₀)) := by decide
  have hfires : (Schedule.every 3600 2 2 (some t₀)).fires (checkAt 60).now = true := by decide
  obtain ⟨-, hrestart⟩ := crash_forgets_no_schedule .everyMinute "blade" w₀ hadm (by decide)
    (.succeeding t₀) rfl (fun _ => rfl) rfl [] (fun t ht => by cases ht) w rfl (checkAt 60)
    (by decide) hok 4
  obtain ⟨-, -, hagain⟩ := hrestart (w.applyAll es).rows (.succeeding (t₀ + seconds 80))
    (.refl _) rfl
  have hv : v.tick .everyMinute (checkAt 90) =
      some (v.applyAll (checkSchedules .everyMinute v (checkAt 90))) := if_pos (by decide)
  exact ⟨by decide, by decide,
    hagain (checkAt 90) _ hv (by decide) (fun _ => rfl) 2 _ htwo hfires hnot⟩

end RBackup2
