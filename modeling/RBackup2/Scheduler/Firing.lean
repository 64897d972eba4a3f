import RBackup2.Lib.Transition
import RBackup2.Scheduler.Tick

/-!
# The firing law

Checks of the schedules in memory, any number of them, when every send, every calculation and
every UPDATE succeeds and the clock never goes back.

* `FiringLaw` — what one check does: who is due is enqueued once and then waits for a later time,
  and nobody else is touched.
* `FiringLaw.of_tick` — every such check obeys it.
* `Spaced.step` — the enqueues of an interval schedule so far, and its next time, are at least its
  interval apart.
* `firing_law` — the law at every check of every run, and the spacing over the whole run.
-/

set_option autoImplicit false

namespace RBackup2

open Transition

/-- Every call of `queue_job` in the check succeeds. -/
def Tick.Succeeds (cron : CronCrate) (w : World) (t : Tick) : Prop :=
  ∀ id s, w.schedules.get id = some s → s.fires t.now = true → (t.queue id).Succeeds cron s

/-- The clock readings of a check, in the order they are taken. -/
def tickReadings (cron : CronCrate) (w : World) (t : Tick) : List DateTime :=
  t.now :: (tickSends cron w t).map Enqueue.reading

/-- Every schedule in memory is enabled and has a next time. -/
def Ready (w : World) : Prop :=
  ∀ id s, w.schedules.get id = some s → s.enabled = true ∧ s.nextRunAt.isSome

/-- **The law of one check** that takes `w` to `w'`. -/
structure FiringLaw (cron : CronCrate) (w : World) (t : Tick) (w' : World) : Prop where
  /-- Who is due at the tick's reading is enqueued exactly once, who is not is not. -/
  once : ∀ id s, w.schedules.get id = some s → ∃ next, s.nextRunAt = some next ∧
    ((tickSends cron w t).map Enqueue.scheduleId).count id = if next ≤ t.now then 1 else 0
  /-- Nothing else is enqueued. -/
  known : ∀ e ∈ tickSends cron w t, ∃ s, w.schedules.get e.scheduleId = some s ∧
    e = enqueueOf t.queue s
  /-- After its enqueue a schedule waits for a time later than the enqueue reading. -/
  later : ∀ e ∈ tickSends cron w t, ∃ s next, w'.schedules.get e.scheduleId = some s ∧
    s.nextRunAt = some next ∧ e.reading < next
  /-- Who is not enqueued is not touched. -/
  frame : ∀ id, id ∉ (tickSends cron w t).map Enqueue.scheduleId →
    w'.schedules.get id = w.schedules.get id
  /-- What becomes of a schedule depends on no other, and not on the order of the visit. -/
  own : ∀ id, w'.schedules.get id =
    (w.schedules.get id).map fun s => s.checked cron t.now (t.queue id)

theorem QueueEnv.Succeeds.sends {cron : CronCrate} {env : QueueEnv} {s : Schedule}
    (h : env.Succeeds cron s) : env.sends = true := by
  unfold QueueEnv.sends
  rw [h.1]

/-- In a check that succeeds the enqueues are those of the schedules that fire. -/
theorem mem_tickSends_of_succeeds {cron : CronCrate} {w w' : World} {t : Tick}
    (h : w.tick cron t = some w') (hok : t.Succeeds cron w) {id : Int} :
    id ∈ (tickSends cron w t).map Enqueue.scheduleId ↔
      ∃ s, w.schedules.get id = some s ∧ s.fires t.now = true := by
  rw [List.mem_map]
  constructor
  · rintro ⟨e, he, rfl⟩
    obtain ⟨s, hs, hf, -, -⟩ := (mem_tickSends h).1 he
    exact ⟨s, hs, hf⟩
  · rintro ⟨s, hs, hf⟩
    have hid := ScheduleMap.id_eq hs
    subst hid
    exact ⟨enqueueOf t.queue s,
      (mem_tickSends h).2 ⟨s, hs, hf, (hok s.id s hs hf).sends, rfl⟩, rfl⟩

theorem Ready.fires_iff {w : World} (hw : Ready w) {id : Int} {s : Schedule} {next now : DateTime}
    (hs : w.schedules.get id = some s) (hnext : s.nextRunAt = some next) :
    s.fires now = true ↔ next ≤ now := by
  have hen := (hw id s hs).1
  simp [Schedule.fires, hen, isDue, hnext]

theorem Ready.tick {cron : CronCrate} {w w' : World} {t : Tick} (hw : Ready w)
    (h : w.tick cron t = some w') : Ready w' := by
  intro id s' hs'
  rw [World.tick_get h] at hs'
  obtain ⟨s, hs, rfl⟩ := Option.map_eq_some_iff.1 hs'
  obtain ⟨hen, hnext⟩ := hw id s hs
  refine ⟨(Schedule.checked_sameDefinition cron t.now (t.queue id) s).enabled.trans hen, ?_⟩
  unfold Schedule.checked
  split
  · unfold Schedule.queued
    split
    · rfl
    · exact hnext
  · exact hnext

/-- What an enqueued schedule waits for after a check that succeeds. -/
theorem tick_get_of_sent {cron : CronCrate} {w w' : World} {t : Tick}
    (h : w.tick cron t = some w') (hok : t.Succeeds cron w) {e : Enqueue}
    (he : e ∈ tickSends cron w t) : ∃ s next, w.schedules.get e.scheduleId = some s ∧
      calculateNextRun cron s (some e.reading) e.reading = .ok next ∧
      w'.schedules.get e.scheduleId =
        some { s with lastRunAt := some e.reading, nextRunAt := some next } := by
  obtain ⟨s, hs, hf, -, rfl⟩ := (mem_tickSends h).1 he
  have hid := ScheduleMap.id_eq hs
  have hsucc := hok _ s hs hf
  obtain ⟨-, ⟨next, hnext⟩, -⟩ := id hsucc
  refine ⟨s, next, hs, hnext, ?_⟩
  rw [World.tick_get h, hs, Option.map_some, Schedule.checked, if_pos hf,
    Schedule.queued_of_succeeds hsucc hnext]
  rfl

/-- **Every check that succeeds obeys the law.** -/
theorem FiringLaw.of_tick {cron : CronCrate} (hcron : cron.Later) {w w' : World} {t : Tick}
    (hw : Ready w) (hok : t.Succeeds cron w) (h : w.tick cron t = some w') :
    FiringLaw cron w t w' := by
  refine ⟨?_, ?_, ?_, ?_, World.tick_get h⟩
  · intro id s hs
    obtain ⟨next, hnext⟩ := Option.isSome_iff_exists.1 (hw id s hs).2
    refine ⟨next, hnext, ?_⟩
    have hmem : id ∈ (tickSends cron w t).map Enqueue.scheduleId ↔ next ≤ t.now := by
      rw [mem_tickSends_of_succeeds h hok, ← hw.fires_iff hs hnext]
      constructor
      · rintro ⟨s', hs', hf⟩
        cases hs.symm.trans hs'
        exact hf
      · intro hf
        exact ⟨s, hs, hf⟩
    by_cases hdue : next ≤ t.now
    · rw [if_pos hdue]
      exact List.count_eq_one_of_mem (tickSends_nodup h) (hmem.2 hdue)
    · rw [if_neg hdue]
      exact List.count_eq_zero.2 fun hin => hdue (hmem.1 hin)
  · intro e he
    obtain ⟨s, hs, -, -, heq⟩ := (mem_tickSends h).1 he
    exact ⟨s, hs, heq⟩
  · intro e he
    obtain ⟨s, next, -, hnext, hs'⟩ := tick_get_of_sent h hok he
    exact ⟨_, next, hs', rfl, calculateNextRun_gt hcron hnext⟩
  · intro id hid
    rw [World.tick_get h]
    cases hs : w.schedules.get id with
    | none => rfl
    | some s =>
      have hf : ¬ s.fires t.now = true := fun hf =>
        hid ((mem_tickSends_of_succeeds h hok).2 ⟨s, hs, hf⟩)
      rw [Option.map_some, Schedule.checked, if_neg hf]

/-! ## The spacing of an interval schedule -/

/-- The enqueues of schedule `id` in a log are at least `n` seconds apart, and its next time is
    at least as far from each of them. -/
structure Spaced (id n : Int) (log : List Enqueue) (w : World) : Prop where
  apart : (log.filter fun e => e.scheduleId = id).Pairwise
    fun e e' => e.reading + seconds n ≤ e'.reading
  waits : ∃ s next, w.schedules.get id = some s ∧ s.isInterval = true ∧
    s.intervalSeconds = some n ∧ s.nextRunAt = some next ∧
      ∀ e ∈ log, e.scheduleId = id → e.reading + seconds n ≤ next

/-- In a list without two enqueues of one schedule, an enqueue is the only one of its schedule. -/
theorem filter_scheduleId {l : List Enqueue} (hnd : (l.map Enqueue.scheduleId).Nodup)
    {e : Enqueue} (he : e ∈ l) : (l.filter fun e' => e'.scheduleId = e.scheduleId) = [e] := by
  induction l with
  | nil => cases he
  | cons a l ih =>
    obtain ⟨ha, hnd⟩ := List.nodup_cons.1 hnd
    rcases List.mem_cons.1 he with rfl | he
    · have hrest : (l.filter fun e' => e'.scheduleId = e.scheduleId) = [] := by
        rw [List.filter_eq_nil_iff]
        intro e' he' heq
        rw [decide_eq_true_eq] at heq
        exact ha (heq ▸ List.mem_map_of_mem he')
      rw [List.filter_cons_of_pos (by simp), hrest]
    · have hne : a.scheduleId ≠ e.scheduleId := fun heq => ha (heq ▸ List.mem_map_of_mem he)
      rw [List.filter_cons_of_neg (by simpa using hne), ih hnd he]

theorem Spaced.step {cron : CronCrate} {id n : Int} {log : List Enqueue} {w w' : World} {t : Tick}
    (hs : Spaced id n log w) (hw : Ready w) (hok : t.Succeeds cron w)
    (hclock : ∀ e ∈ tickSends cron w t, t.now ≤ e.reading) (h : w.tick cron t = some w') :
    Spaced id n (log ++ tickSends cron w t) w' := by
  obtain ⟨s, next, hget, hint, hn, hnext, hall⟩ := hs.waits
  by_cases hin : id ∈ (tickSends cron w t).map Enqueue.scheduleId
  · -- the schedule is enqueued: its next time has come, and the new one is an interval away
    obtain ⟨e, he, rfl⟩ := List.mem_map.1 hin
    obtain ⟨s₀, next', hs₀, hcalc, hget'⟩ := tick_get_of_sent h hok he
    cases hget.symm.trans hs₀
    obtain ⟨hpos, hnew⟩ := calculateNextRun_interval hint hn hcalc
    have hdue : next ≤ t.now := by
      obtain ⟨s₁, hs₁, hf⟩ := (mem_tickSends_of_succeeds h hok).1 hin
      cases hget.symm.trans hs₁
      exact (hw.fires_iff hget hnext).1 hf
    have hread : t.now ≤ e.reading := hclock e he
    have hbefore : ∀ e' ∈ log, e'.scheduleId = e.scheduleId →
        e'.reading + seconds n ≤ e.reading := by
      intro e' he' heq
      exact Int.le_trans (hall e' he' heq) (Int.le_trans hdue hread)
    have honly := filter_scheduleId (tickSends_nodup h) he
    refine ⟨?_, _, next', hget', hint, hn, rfl, ?_⟩
    · rw [List.filter_append, honly, List.pairwise_append]
      refine ⟨hs.apart, List.pairwise_singleton _ _, ?_⟩
      intro e' he' e'' he''
      rw [List.mem_filter, decide_eq_true_eq] at he'
      rw [List.mem_singleton.1 he'']
      exact hbefore e' he'.1 he'.2
    · intro e' he' heq
      rw [hnew]
      rcases List.mem_append.1 he' with he' | he'
      · have hle := hbefore e' he' heq
        simp only [seconds] at hle ⊢
        lia
      · have hmem : e' ∈ (tickSends cron w t).filter fun e' => e'.scheduleId = e.scheduleId := by
          rw [List.mem_filter, decide_eq_true_eq]
          exact ⟨he', heq⟩
        rw [honly, List.mem_singleton] at hmem
        subst hmem
        exact Int.le_refl _
  · -- the schedule is not enqueued: nothing about it changes
    have hnone : ∀ e ∈ tickSends cron w t, e.scheduleId ≠ id := fun e he heq =>
      hin (heq ▸ List.mem_map_of_mem he)
    have hf : ¬ s.fires t.now = true := fun hf =>
      hin ((mem_tickSends_of_succeeds h hok).2 ⟨s, hget, hf⟩)
    have hget' : w'.schedules.get id = some s := by
      rw [World.tick_get h, hget, Option.map_some, Schedule.checked, if_neg hf]
    refine ⟨?_, s, next, hget', hint, hn, hnext, ?_⟩
    · have hempty : ((tickSends cron w t).filter fun e => e.scheduleId = id) = [] := by
        rw [List.filter_eq_nil_iff]
        intro e he heq
        exact hnone e he (by simpa using heq)
      rw [List.filter_append, hempty, List.append_nil]
      exact hs.apart
    · intro e he heq
      rcases List.mem_append.1 he with he | he
      · exact hall e he heq
      · exact absurd heq (hnone e he)

/-! ## The law over a run -/

theorem ready_of_exec {cron : CronCrate} {w w' : World} {ticks : List Tick} (hw : Ready w)
    (h : exec (World.tick cron) w ticks = some w') : Ready w' :=
  exec_invariant (fun _ _ _ hw ht => hw.tick ht) hw h

/-- A clock that never goes back reads no earlier inside a check than at its start. -/
theorem reading_of_clock {cron : CronCrate} {w m : World} {pre : List Tick} {t : Tick}
    (hm : exec (World.tick cron) w pre = some m) {m' : World} (ht : m.tick cron t = some m')
    (hclock : (trace (World.tick cron) (tickReadings cron) w (pre ++ [t])).Pairwise (· ≤ ·)) :
    ∀ e ∈ tickSends cron m t, t.now ≤ e.reading := by
  rw [trace_concat _ hm ht] at hclock
  have hlast := (List.pairwise_append.1 hclock).2.1
  intro e he
  exact (List.pairwise_cons.1 hlast).1 e.reading (List.mem_map_of_mem he)

theorem spaced_of_exec {cron : CronCrate} {w w' : World} {ticks : List Tick} (hw : Ready w)
    (h : exec (World.tick cron) w ticks = some w')
    (hok : Along (World.tick cron) (Tick.Succeeds cron) w ticks)
    (hclock : (trace (World.tick cron) (tickReadings cron) w ticks).Pairwise (· ≤ ·))
    {id n : Int} {s : Schedule} (hs : w.schedules.get id = some s) (hint : s.isInterval = true)
    (hn : s.intervalSeconds = some n) :
    Spaced id n (trace (World.tick cron) (tickSends cron) w ticks) w' := by
  obtain ⟨next, hnext⟩ := Option.isSome_iff_exists.1 (hw id s hs).2
  refine exec_history (P := fun ticks m =>
    Along (World.tick cron) (Tick.Succeeds cron) w ticks →
    (trace (World.tick cron) (tickReadings cron) w ticks).Pairwise (· ≤ ·) →
      Spaced id n (trace (World.tick cron) (tickSends cron) w ticks) m) ?_ ?_ h hok hclock
  · intro _ _
    exact ⟨List.Pairwise.nil, s, next, hs, hint, hn, hnext, fun e he => by cases he⟩
  · intro pre m t m' hm ih ht hok hclock
    obtain ⟨hokpre, hokt⟩ := along_concat.1 hok
    have hread := reading_of_clock hm ht hclock
    rw [trace_concat _ hm ht] at hclock ⊢
    exact (ih hokpre (List.pairwise_append.1 hclock).1).step (ready_of_exec hw hm)
      (hokt m hm) hread ht

/-- **The firing law.**  Start from any map of enabled schedules with a next time, and run any
    number of checks whose calls succeed, on a clock that never goes back.  Every check enqueues
    each schedule that is due exactly once and nobody else, after which it waits for a time later
    than its enqueue; and the enqueues of an interval schedule are at least its interval apart. -/
theorem firing_law (cron : CronCrate) (hcron : cron.Later) (w w' : World) (hw : Ready w)
    (ticks : List Tick) (h : exec (World.tick cron) w ticks = some w')
    (hok : Along (World.tick cron) (Tick.Succeeds cron) w ticks)
    (hclock : (trace (World.tick cron) (tickReadings cron) w ticks).Pairwise (· ≤ ·)) :
    (∀ pre t post m, ticks = pre ++ t :: post → exec (World.tick cron) w pre = some m →
      ∃ m', m.tick cron t = some m' ∧ FiringLaw cron m t m') ∧
    ∀ id s n, w.schedules.get id = some s → s.isInterval = true → s.intervalSeconds = some n →
      ((trace (World.tick cron) (tickSends cron) w ticks).filter
        fun e => e.scheduleId = id).Pairwise fun e e' => e.reading + seconds n ≤ e'.reading := by
  constructor
  · rintro pre t post m rfl hm
    obtain ⟨m₀, hm₀, hrest⟩ := exec_append.1 h
    cases hm.symm.trans hm₀
    obtain ⟨m', ht, -⟩ := exec_cons.1 hrest
    exact ⟨m', ht, .of_tick hcron (ready_of_exec hw hm) (along_at hok hm) ht⟩
  · intro id s n hs hint hn
    exact (spaced_of_exec hw h hok hclock hs hint hn).apart

/-- Every schedule in memory is an interval schedule, with a positive interval. -/
def Intervals (w : World) : Prop :=
  ∀ id s, w.schedules.get id = some s → s.isInterval = true ∧
    ∃ n, s.intervalSeconds = some n ∧ 0 < n

theorem Intervals.tick {cron : CronCrate} {w w' : World} {t : Tick} (hw : Intervals w)
    (h : w.tick cron t = some w') : Intervals w' := by
  intro id s' hs'
  rw [World.tick_get h] at hs'
  obtain ⟨s, hs, rfl⟩ := Option.map_eq_some_iff.1 hs'
  obtain ⟨hint, n, hn, hpos⟩ := hw id s hs
  have hsame := s.checked_sameDefinition cron t.now (t.queue id)
  refine ⟨?_, n, hsame.intervalSeconds.trans hn, hpos⟩
  rw [Schedule.isInterval, hsame.scheduleType]
  exact hint

theorem Intervals.succeeds {cron : CronCrate} {w : World} {t : Tick} (hw : Intervals w)
    (ht : ∀ id, ∃ r, t.queue id = .succeeding r) : t.Succeeds cron w := by
  intro id s hs _
  obtain ⟨r, hr⟩ := ht id
  obtain ⟨hint, n, hn, hpos⟩ := hw id s hs
  rw [hr]
  refine ⟨rfl, ⟨r + seconds n, ?_⟩, rfl⟩
  simp only [QueueEnv.succeeding, calculateNextRun, Schedule.not_isCron_of_isInterval hint, hint,
    calculateNextIntervalRun, hn, if_neg (Int.not_le.2 hpos), if_true, Bool.false_eq_true,
    if_false]

/-- Checks of interval schedules succeed if their sends and UPDATEs do. -/
theorem Intervals.along {cron : CronCrate} :
    ∀ {ticks : List Tick} {w : World}, Intervals w →
      (∀ t ∈ ticks, ∀ id, ∃ r, t.queue id = .succeeding r) →
      Along (World.tick cron) (Tick.Succeeds cron) w ticks
  | [], _, _, _ => trivial
  | _ :: _, _, hw, h => by
    obtain ⟨ht, hrest⟩ := List.forall_mem_cons.1 h
    exact ⟨hw.succeeds ht, fun w' hstep => (hw.tick hstep).along hrest⟩

/-- A schedule of every minute and one of every five, both overdue, checked twice a minute apart:
    the second check finds only the first of them due again. -/
theorem firing_law_two_checks :
    let s₁ := Schedule.every 60 1 1 (some 0)
    let s₂ := Schedule.every 300 2 2 (some (seconds 3600))
    let w := World.ofRows [] [s₁, s₂]
    let ticks : List Tick :=
      [⟨seconds 7200, [2, 1], fun _ => .succeeding (seconds 7200 + 5)⟩,
        ⟨seconds 7261, [1, 2], fun _ => .succeeding (seconds 7261 + 5)⟩]
    ∃ w', exec (World.tick .everyMinute) w ticks = some w' ∧
      (trace (World.tick .everyMinute) (tickSends .everyMinute) w ticks).map
        Enqueue.scheduleId = [2, 1, 1] ∧
      (∀ pre t post m, ticks = pre ++ t :: post →
        exec (World.tick .everyMinute) w pre = some m →
          ∃ m', m.tick .everyMinute t = some m' ∧ FiringLaw .everyMinute m t m') := by
  intro s₁ s₂ w ticks
  have hget : ∀ id s, w.schedules.get id = some s → s = s₁ ∨ s = s₂ := by
    intro id s hs
    rcases ScheduleMap.get_insert_cases hs with h | hs
    · exact .inr h
    · rcases ScheduleMap.get_insert_cases hs with h | hs
      · exact .inl h
      · rw [ScheduleMap.get_empty] at hs
        cases hs
  have hw : Ready w := by
    intro id s hs
    rcases hget id s hs with rfl | rfl <;> exact ⟨rfl, rfl⟩
  have hints : Intervals w := by
    intro id s hs
    rcases hget id s hs with rfl | rfl
    · exact ⟨rfl, 60, rfl, by decide⟩
    · exact ⟨rfl, 300, rfl, by decide⟩
  have hok : Along (World.tick .everyMinute) (Tick.Succeeds .everyMinute) w ticks := by
    refine hints.along fun t ht id => ?_
    simp only [ticks, List.mem_cons, List.not_mem_nil, or_false] at ht
    rcases ht with rfl | rfl <;> exact ⟨_, rfl⟩
  refine ⟨_, rfl, by decide, ?_⟩
  exact (firing_law .everyMinute CronCrate.everyMinute_later w _ hw ticks rfl hok (by decide)).1

end RBackup2
