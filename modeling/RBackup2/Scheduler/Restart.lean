import RBackup2.Lib.Transition
import RBackup2.Scheduler.Load

/-!
# Restarting the client

The map in memory is keyed by schedule, the UPDATE of the database by job, and a timestamp column
keeps microseconds.  Map and table stay in step while every schedule that is written is alone
with its job and computes its time from whole microseconds.

* `InStep` — every schedule in memory has the next time of its own row; `InStep.move` is the one
  step that keeps it, an UPDATE together with a write to the map.
* `InStep.reloadLoop`, `InStep.tick` — a load and a check are such steps, one after the other.
* `Agree`, `Agree.tick` — two worlds that agree on definitions and next times answer every check
  alike.
* `restart_transparent` — a restart gives the same next times and the same later enqueues.
-/

set_option autoImplicit false

namespace RBackup2

open Transition

/-- The rows a load for the device would read. -/
def World.deviceRows (w : World) (deviceId : String) : List Schedule :=
  getSchedulesForDevice w.jobs w.rows deviceId

/-- No other schedule of the device is for the same job. -/
def Alone (deviceId : String) (w : World) (s : Schedule) : Prop :=
  ∀ row ∈ w.deviceRows deviceId, row.jobId = s.jobId → row.id = s.id

instance (deviceId : String) (w : World) (s : Schedule) : Decidable (Alone deviceId w s) :=
  inferInstanceAs (Decidable (∀ row ∈ w.deviceRows deviceId, _ → _))

/-- The ids of the rows of the device, each with its job. -/
def World.deviceKeys (w : World) (deviceId : String) : List (Int × Uuid) :=
  (w.deviceRows deviceId).map fun r => (r.id, r.jobId)

/-- Nothing the scheduler does changes them. -/
theorem World.applyAll_deviceKeys (deviceId : String) (w : World) (es : List Effect) :
    (w.applyAll es).deviceKeys deviceId = w.deviceKeys deviceId := by
  induction es generalizing w with
  | nil => rfl
  | cons e es ih =>
    show ((w.apply e).applyAll es).deviceKeys deviceId = _
    rw [ih]
    cases e with
    | updateRows jobId last next =>
      show (getSchedulesForDevice w.jobs (updateScheduleLastRun jobId last next w.rows)
        deviceId).map _ = _
      rw [getSchedulesForDevice_update, updateScheduleLastRun_keys]
      rfl
    | send | advance | clear | insert => rfl

theorem alone_congr {deviceId : String} {w w' : World}
    (h : w'.deviceKeys deviceId = w.deviceKeys deviceId) {s : Schedule}
    (hs : Alone deviceId w s) : Alone deviceId w' s := by
  intro row hrow hjob
  have hkey : (row.id, row.jobId) ∈ w.deviceKeys deviceId := by
    rw [← h]
    exact List.mem_map_of_mem hrow
  obtain ⟨r, hr, heq⟩ := List.mem_map.1 hkey
  obtain ⟨hid, hj⟩ := Prod.mk.inj heq
  rw [← hid]
  exact hs r hr (hj.trans hjob)

theorem deviceRows_ids (w : World) (deviceId : String) :
    (w.deviceRows deviceId).map Schedule.id = (w.deviceKeys deviceId).map Prod.fst := by
  unfold World.deviceKeys
  rw [List.map_map]
  rfl

/-- **Map and table in step**: a schedule in memory waits for the time its own row has. -/
structure InStep (deviceId : String) (w : World) : Prop where
  ids_nodup : ((w.deviceRows deviceId).map Schedule.id).Nodup
  same : ∀ id s, w.schedules.get id = some s → ∃ row ∈ w.deviceRows deviceId, row.id = id ∧
    s.SameDefinition row ∧ row.nextRunAt = s.nextRunAt ∧ s.nextRunAt.isSome

/-! ## The two ways to write a schedule -/

/-- The UPDATE for a schedule that is alone with its job changes its row and keeps the others. -/
theorem mem_deviceRows_update {deviceId : String} {w : World} {row : Schedule}
    (hrow : row ∈ w.deviceRows deviceId) (halone : Alone deviceId w row) (last : DateTime)
    (next : Option DateTime) :
    let w' := w.apply (.updateRows row.jobId last next)
    ({ row with lastRunAt := some (timestamptz last), nextRunAt := next.map timestamptz } ∈
      w'.deviceRows deviceId) ∧
    ∀ r ∈ w.deviceRows deviceId, r.id ≠ row.id → r ∈ w'.deviceRows deviceId := by
  intro w'
  have heq : w'.deviceRows deviceId =
      updateScheduleLastRun row.jobId last next (w.deviceRows deviceId) :=
    getSchedulesForDevice_update w.jobs w.rows deviceId row.jobId last next
  rw [heq]
  refine ⟨List.mem_map.2 ⟨row, hrow, if_pos rfl⟩, fun r hr hne => ?_⟩
  exact mem_updateScheduleLastRun_of_ne hr fun hjob => hne (halone r hr hjob)

/-- **An UPDATE together with a write to the map** keeps them in step, if the schedule is alone
    with its job and the time survives the column. -/
theorem InStep.move {deviceId : String} {w : World} (h : InStep deviceId w) {row s : Schedule}
    (hrow : row ∈ w.deviceRows deviceId) (halone : Alone deviceId w row)
    (hdef : row.SameDefinition s) {next : DateTime} (hnext : s.nextRunAt = some next)
    (hmicro : WholeMicros next) (last : DateTime) :
    InStep deviceId
      ((w.apply (.updateRows row.jobId last (some next))).apply (.insert s)) := by
  obtain ⟨hself, hother⟩ := mem_deviceRows_update hrow halone last (some next)
  refine ⟨?_, ?_⟩
  · have hkeys := w.applyAll_deviceKeys deviceId
      [.updateRows row.jobId last (some next), .insert s]
    have hnd := h.ids_nodup
    rw [deviceRows_ids, ← hkeys, ← deviceRows_ids] at hnd
    exact hnd
  · intro id u hu
    change (w.schedules.insert s).get id = some u at hu
    rw [ScheduleMap.get_insert] at hu
    split at hu
    · rename_i hid
      cases hu
      refine ⟨_, hself, ?_, hdef.symm.trans (.setTimes row _ _), ?_, ?_⟩
      · rw [hid, hdef.id]
      · rw [hnext, Option.map_some, timestamptz_eq_self hmicro]
      · rw [hnext]; rfl
    · rename_i hid
      obtain ⟨r, hr, hrid, hrest⟩ := h.same id u hu
      exact ⟨r, hother r hr (by rw [hrid, ← hdef.id]; exact hid), hrid, hrest⟩

/-- A row with a next time is put into the map as it is. -/
theorem InStep.insert {deviceId : String} {w : World} (h : InStep deviceId w) {row : Schedule}
    (hrow : row ∈ w.deviceRows deviceId) (hnext : row.nextRunAt.isSome) :
    InStep deviceId (w.apply (.insert row)) := by
  refine ⟨h.ids_nodup, ?_⟩
  intro id u hu
  change (w.schedules.insert row).get id = some u at hu
  rw [ScheduleMap.get_insert] at hu
  split at hu
  · rename_i hid
    cases hu
    exact ⟨row, hrow, hid.symm, .refl row, rfl, hnext⟩
  · exact h.same id u hu

/-! ## A load keeps in step -/

/-- The load writes a schedule only where it is alone with its job and computes its time from
    whole microseconds; the UPDATE succeeds. -/
def LoadExact (deviceId : String) (env : ReloadEnv) (w : World) (s : Schedule) : Prop :=
  s.nextRunAt = none → env.update s.id = .done ∧ Alone deviceId w s ∧
    (s.isInterval = true → s.lastRunAt = none → WholeMicros (env.now s.id))

theorem loaded_wholeMicros {cron : CronCrate} (hcron : cron.WholeSeconds) {deviceId : String}
    {env : ReloadEnv} {w : World} {s : Schedule} (hexact : LoadExact deviceId env w s)
    (hlast : ∀ t, s.lastRunAt = some t → WholeMicros t) (hnone : s.nextRunAt = none)
    {next : DateTime} (hcalc : calculateNextRun cron s s.lastRunAt (env.now s.id) = .ok next) :
    WholeMicros next := by
  refine calculateNextRun_wholeMicros hcron (fun hint => ?_) hcalc
  cases hl : s.lastRunAt with
  | none => exact (hexact hnone).2.2 hint hl
  | some t => exact hlast t hl

/-- One iteration of the load. -/
theorem InStep.loadEffects {cron : CronCrate} (hcron : cron.WholeSeconds) {deviceId : String}
    {env : ReloadEnv} {w : World} (h : InStep deviceId w) {s : Schedule}
    (hs : s ∈ w.deviceRows deviceId) (hload : Loadable cron env s)
    (hexact : LoadExact deviceId env w s) (hlast : ∀ t, s.lastRunAt = some t → WholeMicros t) :
    InStep deviceId (w.applyAll (loadEffects cron env s)) ∧
      ∀ r ∈ w.deviceRows deviceId, r.id ≠ s.id →
        r ∈ (w.applyAll (RBackup2.loadEffects cron env s)).deviceRows deviceId := by
  cases hnext : s.nextRunAt with
  | some next =>
    have heff : RBackup2.loadEffects cron env s = [.insert s] := by
      simp [RBackup2.loadEffects, Schedule.loaded, hnext]
    rw [heff]
    exact ⟨h.insert hs (by rw [hnext]; rfl), fun r hr _ => hr⟩
  | none =>
    obtain ⟨hupd, halone, -⟩ := hexact hnext
    rcases hload with hload | ⟨next, hcalc⟩
    · rw [hnext] at hload
      cases hload
    · have hmicro := loaded_wholeMicros hcron hexact hlast hnext hcalc
      have heff : RBackup2.loadEffects cron env s =
          [.updateRows s.jobId (s.lastRunAt.getD (env.now s.id)) (some next),
            .insert { s with nextRunAt := some next }] := by
        simp [RBackup2.loadEffects, Schedule.loaded, updateEffect, DbOutcome.applied, hnext, hcalc,
          hupd]
      rw [heff]
      refine ⟨?_, (mem_deviceRows_update hs halone _ _).2⟩
      exact h.move (s := { s with nextRunAt := some next }) hs halone
        (.setTimes s s.lastRunAt (some next)) rfl hmicro _

theorem InStep.reloadLoop {cron : CronCrate} (hcron : cron.WholeSeconds) {deviceId : String}
    {env : ReloadEnv} : ∀ {l : List Schedule} {w : World}, InStep deviceId w →
      (l.map Schedule.id).Nodup → (∀ s ∈ l, s ∈ w.deviceRows deviceId) →
      (∀ s ∈ l, Loadable cron env s) → (∀ s ∈ l, LoadExact deviceId env w s) →
      (∀ s ∈ l, ∀ t, s.lastRunAt = some t → WholeMicros t) →
      InStep deviceId (w.applyAll (reloadLoop cron env l).1)
  | [], _, h, _, _, _, _, _ => h
  | s :: rest, w, h, hnd, hmem, hload, hexact, hlast => by
    obtain ⟨hs, hnd⟩ := List.nodup_cons.1 hnd
    obtain ⟨hfirst, hrest⟩ := List.forall_mem_cons.1 hload
    obtain ⟨hstep, hkeep⟩ := h.loadEffects hcron (hmem s List.mem_cons_self) hfirst
      (hexact s List.mem_cons_self) (hlast s List.mem_cons_self)
    have hkeys := w.applyAll_deviceKeys deviceId (RBackup2.loadEffects cron env s)
    rw [(reloadLoop_cons cron env s rest).1 hfirst]
    simp only [World.applyAll_append]
    refine InStep.reloadLoop hcron hstep hnd ?_ hrest ?_ ?_
    · intro u hu
      refine hkeep u (hmem u (List.mem_cons_of_mem _ hu)) fun e => hs ?_
      rw [← e]
      exact List.mem_map_of_mem hu
    · intro u hu hnone
      obtain ⟨hupd, halone, hmicro⟩ := hexact u (List.mem_cons_of_mem _ hu) hnone
      exact ⟨hupd, alone_congr hkeys halone, hmicro⟩
    · exact fun u hu => hlast u (List.mem_cons_of_mem _ hu)

/-- **A load** into an empty map leaves map and table in step. -/
theorem InStep.reload {cron : CronCrate} (hcron : cron.WholeSeconds) {deviceId : String}
    {env : ReloadEnv} {w : World} (hadm : SchedulesAdmitted w.rows)
    (hok : (w.reload cron deviceId env).2 = .ok ())
    (hexact : ∀ s ∈ w.deviceRows deviceId, LoadExact deviceId env w s) :
    InStep deviceId (w.reload cron deviceId env).1 := by
  have hnd := getSchedulesForDevice_ids w.jobs hadm deviceId
  have hempty : InStep deviceId { w with schedules := .empty } :=
    ⟨hnd, fun id s hs => by rw [ScheduleMap.get_empty] at hs; cases hs⟩
  unfold World.reload reloadSchedules at hok ⊢
  split at hok
  · cases hok
  · rename_i hsel
    refine hempty.reloadLoop hcron hnd (fun s hs => hs) (reloadLoop_ok_iff.1 hok) hexact ?_
    intro s hs t ht
    exact hadm.resolution s (List.mem_filter.1 hs).1 t (.inl ht)

/-! ## A check keeps in step -/

/-- The check writes a schedule only where it is alone with its job and computes its time from
    whole microseconds; the UPDATE succeeds. -/
def TickExact (deviceId : String) (w : World) (t : Tick) : Prop :=
  ∀ id s, w.schedules.get id = some s → s.fires t.now = true →
    (t.queue id).update = .done ∧ Alone deviceId w s ∧
      (s.isInterval = true → WholeMicros (t.queue id).now)

theorem InStep.queueJob {cron : CronCrate} (hcron : cron.WholeSeconds) {deviceId : String}
    {w : World} (h : InStep deviceId w) {s : Schedule} (hs : w.schedules.get s.id = some s)
    {env : QueueEnv} (hupd : env.update = .done) (halone : Alone deviceId w s)
    (hmicro : s.isInterval = true → WholeMicros env.now) :
    InStep deviceId (w.applyAll (queueJob cron env s).1) := by
  rcases queueJob_cases cron env s with ⟨-, heff⟩ | ⟨-, -, heff⟩ | ⟨-, hne, -⟩ |
    ⟨-, next, hnext, heff⟩
  · rw [heff]
    exact h
  · rw [heff]
    exact h
  · exact absurd hupd hne
  · obtain ⟨row, hrow, hid, hdef, -, -⟩ := h.same s.id s hs
    have hwhole : WholeMicros next := calculateNextRun_wholeMicros hcron hmicro hnext
    have halone' : Alone deviceId w row := by
      intro r hr hjob
      rw [hid]
      exact halone r hr (hjob.trans hdef.jobId)
    have hmove := h.move (s := { s with lastRunAt := some env.now, nextRunAt := some next }) hrow
      halone' (hdef.symm.trans (.setTimes s _ _)) rfl hwhole env.now
    rw [hdef.jobId] at hmove
    rw [heff]
    show InStep deviceId ⟨w.jobs, updateScheduleLastRun s.jobId env.now (some next) w.rows,
      w.schedules.advance s.id env.now next⟩
    rw [ScheduleMap.advance_eq hs]
    exact hmove

theorem InStep.checkLoop {cron : CronCrate} (hcron : cron.WholeSeconds) {deviceId : String}
    {now : DateTime} {queue : Int → QueueEnv} : ∀ {l : List Schedule} {w : World},
      InStep deviceId w → (l.map Schedule.id).Nodup →
      (∀ s ∈ l, w.schedules.get s.id = some s) →
      (∀ s ∈ l, s.fires now = true → (queue s.id).update = .done ∧ Alone deviceId w s ∧
        (s.isInterval = true → WholeMicros (queue s.id).now)) →
      InStep deviceId (w.applyAll (checkLoop cron now queue l))
  | [], _, h, _, _, _ => h
  | s :: rest, w, h, hnd, hget, hexact => by
    obtain ⟨hs, hnd⟩ := List.nodup_cons.1 hnd
    rw [checkLoop_cons, World.applyAll_append]
    by_cases hf : s.fires now = true
    · obtain ⟨hupd, halone, hmicro⟩ := hexact s List.mem_cons_self hf
      have hkeys := w.applyAll_deviceKeys deviceId (RBackup2.queueJob cron (queue s.id) s).1
      rw [if_pos hf]
      refine InStep.checkLoop hcron
        (h.queueJob hcron (hget s List.mem_cons_self) hupd halone hmicro) hnd ?_ ?_
      · intro u hu
        have hne : u.id ≠ s.id := fun e => hs (e ▸ List.mem_map_of_mem hu)
        rw [queueJob_get (hget s List.mem_cons_self), if_neg hne]
        exact hget u (List.mem_cons_of_mem _ hu)
      · intro u hu hfu
        obtain ⟨hupd, halone, hmicro⟩ := hexact u (List.mem_cons_of_mem _ hu) hfu
        exact ⟨hupd, alone_congr hkeys halone, hmicro⟩
    · rw [if_neg hf]
      exact h.checkLoop hcron hnd (fun u hu => hget u (List.mem_cons_of_mem _ hu))
        fun u hu => hexact u (List.mem_cons_of_mem _ hu)

/-- **A check** keeps map and table in step. -/
theorem InStep.tick {cron : CronCrate} (hcron : cron.WholeSeconds) {deviceId : String}
    {w w' : World} {t : Tick} (h : InStep deviceId w) (hexact : TickExact deviceId w t)
    (ht : w.tick cron t = some w') : InStep deviceId w' := by
  obtain ⟨hp, rfl⟩ := World.tick_eq ht
  refine h.checkLoop hcron ?_ (fun s hs => (World.mem_snapshot hp).1 hs) ?_
  · rw [World.snapshot_ids hp]
    exact hp.nodup_iff.2 w.schedules.ids_nodup
  · intro s hs hf
    exact hexact s.id s ((World.mem_snapshot hp).1 hs) hf

/-- Every row of the device is in memory. -/
def Covers (deviceId : String) (w : World) : Prop :=
  ∀ k ∈ w.deviceKeys deviceId, ∃ s, w.schedules.get k.1 = some s

theorem Covers.tick {cron : CronCrate} {deviceId : String} {w w' : World} {t : Tick}
    (h : Covers deviceId w) (ht : w.tick cron t = some w') : Covers deviceId w' := by
  intro k hk
  have hkeys : w'.deviceKeys deviceId = w.deviceKeys deviceId := by
    rw [(World.tick_eq ht).2, World.applyAll_deviceKeys]
  rw [hkeys] at hk
  obtain ⟨s, hs⟩ := h k hk
  exact ⟨s.checked cron t.now (t.queue k.1), by rw [World.tick_get ht, hs, Option.map_some]⟩

theorem Covers.reload {cron : CronCrate} {deviceId : String} {env : ReloadEnv} {w : World}
    (hadm : SchedulesAdmitted w.rows) (hsel : env.select = .ok ())
    (hok : (w.reload cron deviceId env).2 = .ok ()) :
    Covers deviceId (w.reload cron deviceId env).1 := by
  have hnd := getSchedulesForDevice_ids w.jobs hadm deviceId
  intro k hk
  have hkeys : (w.reload cron deviceId env).1.deviceKeys deviceId = w.deviceKeys deviceId :=
    w.applyAll_deviceKeys deviceId _
  rw [hkeys] at hk
  obtain ⟨s, hs, rfl⟩ := List.mem_map.1 hk
  exact ⟨_, (World.reload_get hsel hnd hok).1 s hs⟩

/-! ## Worlds that decide alike -/

/-- Two schedules that fire at the same times. -/
def Schedule.Alike (s s' : Schedule) : Prop := s.SameDefinition s' ∧ s'.nextRunAt = s.nextRunAt

/-- **Agreement**: the same schedules in memory, up to their last runs. -/
def Agree (w v : World) : Prop :=
  ∀ id, (w.schedules.get id = none ∧ v.schedules.get id = none) ∨
    ∃ s s', w.schedules.get id = some s ∧ v.schedules.get id = some s' ∧ s.Alike s'

theorem Schedule.Alike.fires {s s' : Schedule} (h : s.Alike s') (now : DateTime) :
    s'.fires now = s.fires now := by
  unfold Schedule.fires isDue
  rw [h.1.enabled, h.2]

theorem Schedule.Alike.queued {s s' : Schedule} (h : s.Alike s') (cron : CronCrate)
    (env : QueueEnv) : (s.queued cron env).Alike (s'.queued cron env) := by
  have hcalc := calculateNextRun_congr h.1 cron (some env.now) env.now
  have hres : (queueJob cron env s').2 = (queueJob cron env s).2 := by
    simp only [queueJob, hcalc]
    cases env.send with
    | error e => rfl
    | ok u =>
      cases calculateNextRun cron s (some env.now) env.now with
      | error e => rfl
      | ok next => cases env.update <;> rfl
  unfold Schedule.queued
  rw [hres, hcalc]
  split
  · exact ⟨(Schedule.SameDefinition.setTimes s _ _).symm.trans (h.1.trans (.setTimes s' _ _)), rfl⟩
  · exact h

theorem Schedule.Alike.checked {s s' : Schedule} (h : s.Alike s') (cron : CronCrate)
    (now : DateTime) (env : QueueEnv) :
    (s.checked cron now env).Alike (s'.checked cron now env) := by
  unfold Schedule.checked
  rw [h.fires]
  split
  · exact h.queued cron env
  · exact h

theorem Agree.exists_iff {w v : World} (h : Agree w v) (id : Int) :
    (∃ s, w.schedules.get id = some s) ↔ ∃ s, v.schedules.get id = some s := by
  rcases h id with ⟨hw, hv⟩ | ⟨s, s', hw, hv, -⟩
  · rw [hw, hv]
  · rw [hw, hv]
    exact ⟨fun _ => ⟨s', rfl⟩, fun _ => ⟨s, rfl⟩⟩

/-- **Agreeing worlds answer a check alike**, and agree again. -/
theorem Agree.tick {cron : CronCrate} {w v w' : World} {t : Tick} (h : Agree w v)
    (ht : w.tick cron t = some w') :
    ∃ v', v.tick cron t = some v' ∧ Agree w' v' ∧ tickSends cron v t = tickSends cron w t := by
  have hp : t.order.Perm v.schedules.ids := by
    obtain ⟨hnd, hmem⟩ := ScheduleMap.perm_ids.1 (World.tick_eq ht).1
    exact ScheduleMap.perm_ids.2 ⟨hnd, fun id => (hmem id).trans (h.exists_iff id)⟩
  have htv : v.tick cron t = some (v.applyAll (checkSchedules cron v t)) := if_pos hp
  refine ⟨_, htv, ?_, ?_⟩
  · intro id
    rw [World.tick_get ht, World.tick_get htv]
    rcases h id with ⟨hw, hv⟩ | ⟨s, s', hw, hv, hss⟩
    · rw [hw, hv]
      exact .inl ⟨rfl, rfl⟩
    · rw [hw, hv]
      exact .inr ⟨_, _, rfl, rfl, hss.checked cron t.now (t.queue id)⟩
  · rw [tickSends_eq_filterMap, tickSends_eq_filterMap]
    congr 1
    funext id
    rcases h id with ⟨hw, hv⟩ | ⟨s, s', hw, hv, hss⟩
    · rw [hw, hv]
    · rw [hw, hv]
      simp only [Option.bind_some, hss.fires, enqueueOf, hss.1.id, hss.1.jobId]

/-- A load from rows that are in step agrees with the map they are in step with. -/
theorem Agree.ofReload (cron : CronCrate) {deviceId : String} {w : World}
    (h : InStep deviceId w) (hall : Covers deviceId w) {rows : List Schedule}
    (hperm : rows.Perm w.rows) {env : ReloadEnv} (hsel : env.select = .ok ()) :
    ((⟨w.jobs, rows, .empty⟩ : World).reload cron deviceId env).2 = .ok () ∧
      Agree w ((⟨w.jobs, rows, .empty⟩ : World).reload cron deviceId env).1 := by
  let v : World := ⟨w.jobs, rows, .empty⟩
  have hrows : (v.deviceRows deviceId).Perm (w.deviceRows deviceId) := hperm.filter _
  have hnd : ((v.deviceRows deviceId).map Schedule.id).Nodup :=
    (hrows.map Schedule.id).nodup_iff.2 h.ids_nodup
  -- every row is in memory, so it has a next time and is taken as it is
  have hrow : ∀ row ∈ v.deviceRows deviceId, ∃ s, w.schedules.get row.id = some s ∧
      s.Alike row ∧ row.nextRunAt.isSome := by
    intro row hr
    have hr' := hrows.mem_iff.1 hr
    obtain ⟨s, hs⟩ := hall _ (List.mem_map_of_mem hr')
    obtain ⟨r, hrr, hid, hdef, hnext, hsome⟩ := h.same row.id s hs
    have heq : r = row := List.inj_on_of_nodup_map h.ids_nodup hrr hr' hid
    subst heq
    exact ⟨s, hs, ⟨hdef, hnext⟩, by rw [hnext]; exact hsome⟩
  have hok : (v.reload cron deviceId env).2 = .ok () := (World.reload_ok_iff hsel).2 fun s hs => by
    obtain ⟨-, -, -, hsome⟩ := hrow s hs
    exact .inl hsome
  obtain ⟨hin, hout⟩ := World.reload_get hsel hnd hok
  refine ⟨hok, fun id => ?_⟩
  by_cases hid : id ∈ (v.deviceRows deviceId).map Schedule.id
  · obtain ⟨row, hr, rfl⟩ := List.mem_map.1 hid
    obtain ⟨s, hs, halike, hsome⟩ := hrow row hr
    obtain ⟨next, hnext⟩ := Option.isSome_iff_exists.1 hsome
    have hloaded : row.loaded cron env = row := by
      unfold Schedule.loaded
      rw [hnext]
    rw [hs, hin row hr, hloaded]
    exact .inr ⟨s, row, rfl, rfl, halike⟩
  · rw [hout id hid]
    cases hs : w.schedules.get id with
    | none => exact .inl ⟨rfl, rfl⟩
    | some s =>
      obtain ⟨row, hr, hrid, -⟩ := h.same id s hs
      exact absurd (hrid ▸ List.mem_map_of_mem (hrows.mem_iff.2 hr)) hid

/-! ## The restart -/

/-- **Restart transparency.**  Start from any content the schema admits, load it, and run any
    number of checks, all of whose UPDATEs succeed.  As long as every schedule that is written is
    alone with its job and computes its time from whole microseconds, every schedule in memory
    waits for the time in its own row; so a client that is stopped here and loads the rows again,
    in whatever order, waits for the same times and answers all later checks with the same
    enqueues. -/
theorem restart_transparent (cron : CronCrate) (hcron : cron.WholeSeconds) (deviceId : String)
    (w₀ : World) (hadm : SchedulesAdmitted w₀.rows) (env : ReloadEnv) (hsel : env.select = .ok ())
    (hload : (w₀.reload cron deviceId env).2 = .ok ())
    (hexact : ∀ s ∈ w₀.deviceRows deviceId, LoadExact deviceId env w₀ s) (ticks : List Tick)
    (w : World) (h : exec (World.tick cron) (w₀.reload cron deviceId env).1 ticks = some w)
    (hticks : Along (World.tick cron) (TickExact deviceId) (w₀.reload cron deviceId env).1 ticks) :
    (∀ id s, w.schedules.get id = some s →
      ∃ row ∈ w.rows, row.id = id ∧ row.nextRunAt = s.nextRunAt) ∧
    ∀ rows env', rows.Perm w.rows → env'.select = .ok () →
      let v := (⟨w.jobs, rows, .empty⟩ : World).reload cron deviceId env'
      v.2 = .ok () ∧
      (∀ id, (v.1.schedules.get id).map Schedule.nextRunAt =
        (w.schedules.get id).map Schedule.nextRunAt) ∧
      ∀ later w', exec (World.tick cron) w later = some w' →
        ∃ v', exec (World.tick cron) v.1 later = some v' ∧
          trace (World.tick cron) (tickSends cron) v.1 later =
            trace (World.tick cron) (tickSends cron) w later := by
  have hstep : InStep deviceId w :=
    exec_along (fun _ _ _ hs hg ht => hs.tick hcron hg ht) (InStep.reload hcron hadm hload hexact)
      hticks h
  have hall : Covers deviceId w :=
    exec_invariant (fun _ _ _ hs ht => hs.tick ht) (Covers.reload hadm hsel hload) h
  constructor
  · intro id s hs
    obtain ⟨row, hrow, hid, -, hnext, -⟩ := hstep.same id s hs
    exact ⟨row, (List.mem_filter.1 hrow).1, hid, hnext⟩
  · intro rows env' hperm hsel'
    obtain ⟨hok, hagree⟩ := Agree.ofReload cron hstep hall hperm hsel'
    refine ⟨hok, fun id => ?_, fun later w' hlater => ?_⟩
    · rcases hagree id with ⟨hs, hv⟩ | ⟨s, s', hs, hv, halike⟩
      · rw [hs, hv]
      · rw [hs, hv]
        exact congrArg some halike.2
    · have hsim : ∀ s t a s', Agree s t → World.tick cron s a = some s' →
          ∃ t', World.tick cron t a = some t' ∧ Agree s' t' ∧
            tickSends cron t a = tickSends cron s a := fun s t a s' hst ht => hst.tick ht
      obtain ⟨v', hv', -, htrace⟩ := exec_simulation hsim hagree hlater
      exact ⟨v', hv', htrace⟩

/-- An hourly schedule without a next time, loaded, fired once, and loaded again. -/
theorem restart_transparent_hourly :
    let t₀ := seconds 1735689600
    let w₀ : World := ⟨[.plain 1 "blade"], [.every 3600 1 1 none], .empty⟩
    let ticks : List Tick := [⟨t₀ + seconds 3660, [1], fun _ => .succeeding (t₀ + seconds 3660)⟩]
    ∃ w, exec (World.tick .everyMinute)
        (w₀.reload .everyMinute "blade" (.succeeding t₀)).1 ticks = some w ∧
      (w.schedules.get 1).map Schedule.nextRunAt = some (some (t₀ + seconds 7260)) ∧
      ∀ id s, w.schedules.get id = some s →
        ∃ row ∈ w.rows, row.id = id ∧ row.nextRunAt = s.nextRunAt := by
  intro t₀ w₀ ticks
  have hadm : SchedulesAdmitted w₀.rows := .ofRows (by decide)
  have hexact : ∀ s ∈ w₀.deviceRows "blade", LoadExact "blade" (.succeeding t₀) w₀ s := by
    intro s hs _
    have hs : s ∈ [Schedule.every 3600 1 1 none] := hs
    rw [List.mem_singleton.1 hs]
    exact ⟨rfl, by decide, fun _ _ => by decide⟩
  have hticks : Along (World.tick .everyMinute) (TickExact "blade")
      (w₀.reload .everyMinute "blade" (.succeeding t₀)).1 ticks := by
    refine ⟨?_, fun _ _ => trivial⟩
    intro id s hs _
    rcases ScheduleMap.get_insert_cases hs with rfl | hs
    · have hmicro : WholeMicros (t₀ + seconds 3660) := by decide
      exact ⟨rfl, by decide, fun _ => hmicro⟩
    · change ScheduleMap.empty.get id = some s at hs
      rw [ScheduleMap.get_empty] at hs
      cases hs
  refine ⟨_, rfl, by decide, ?_⟩
  exact (restart_transparent .everyMinute CronCrate.everyMinute_wholeSeconds "blade" w₀ hadm
    (.succeeding t₀) rfl rfl hexact ticks _ rfl hticks).1

/-- Two hourly schedules of one job: the first one's UPDATE also moves the row of the second. -/
theorem restart_not_transparent :
    ¬ ∀ (cron : CronCrate), cron.WholeSeconds → ∀ (deviceId : String) (w₀ : World)
      (env : ReloadEnv), SchedulesAdmitted w₀.rows → env.select = .ok () →
      (∀ id, env.update id = .done) → (w₀.reload cron deviceId env).2 = .ok () →
      ∀ (ticks : List Tick) (w : World),
        exec (World.tick cron) (w₀.reload cron deviceId env).1 ticks = some w →
        (∀ t ∈ ticks, ∀ id, (t.queue id).update = .done) →
        ∀ id s, w.schedules.get id = some s →
          ∃ row ∈ w.rows, row.id = id ∧ row.nextRunAt = s.nextRunAt := by
  intro h
  let w₀ : World := ⟨[.plain 1 "blade"],
    [.every 3600 1 1 (some 0), .every 3600 2 1 (some (seconds 1800))], .empty⟩
  let ticks : List Tick := [⟨seconds 10, [1, 2], fun _ => .succeeding (seconds 10)⟩]
  have hadm : SchedulesAdmitted w₀.rows := .ofRows (by decide)
  have hticks : ∀ t ∈ ticks, ∀ id, (t.queue id).update = .done := by
    intro t ht id
    rw [List.mem_singleton.1 ht]
    rfl
  have hrow := h .everyMinute CronCrate.everyMinute_wholeSeconds "blade" w₀ (.succeeding 0) hadm rfl
    (fun _ => rfl) rfl ticks _ rfl hticks 2 (.every 3600 2 1 (some (seconds 1800))) (by decide)
  exact absurd hrow (by decide)

end RBackup2
